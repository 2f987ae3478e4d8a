import RulesText.Proofs.Sources

/-!
# Amounts are told apart

Effects that differ only in their amounts have different clauses, whatever raw tags stand beside the
amounts, and costs that differ only in their amount have different phrases. A number is a word of
its own that no other word is taken for, and the words in front of an amount are the same for
every amount, so the first word in which two such texts differ is about an amount.
-/

namespace RulesText
open Describe Text

/-! ## Effects and their amounts -/

/-- Standing changes of one kind that differ in their amounts at most. -/
inductive Standing.SameButAmounts : Standing → Standing → Prop
  | refl (change : Standing) : SameButAmounts change change
  | modifyStats (stat stat' : Stat) (change change' : Int32) :
    SameButAmounts (.modifyStats stat change) (.modifyStats stat' change')
  | damageReduction (amount amount' : UInt32) :
    SameButAmounts (.damageReduction amount) (.damageReduction amount')

/-- Acts of one kind that differ in their amounts at most: they are about the same counter or
token. -/
inductive Act.SameButAmounts : Act → Act → Prop
  | refl (act : Act) : SameButAmounts act act
  | dealDamage (amount amount' : DamageAmount) (piercing piercing' : Bool) :
    SameButAmounts (.dealDamage amount piercing) (.dealDamage amount' piercing')
  | heal (amount amount' : HealAmount) : SameButAmounts (.heal amount) (.heal amount')
  | drawCards (count count' : UInt32) : SameButAmounts (.drawCards count) (.drawCards count')
  | applyCounter (counter : Counter) (count count' : UInt32) :
    SameButAmounts (.applyCounter counter count) (.applyCounter counter count')
  | removeCounter (counter : Option Counter) (count count' : Option UInt32) :
    SameButAmounts (.removeCounter counter count) (.removeCounter counter count')
  | cannotBeTargeted (sources : List TargetingSource) (threshold threshold' : Option UInt32) :
    SameButAmounts (.cannotBeTargeted sources threshold) (.cannotBeTargeted sources threshold')
  | gainResource (resource resource' : Resource) (amount amount' : UInt32) :
    SameButAmounts (.gainResource resource amount) (.gainResource resource' amount')
  | preventDamage (amount amount' : Option UInt32) :
    SameButAmounts (.preventDamage amount) (.preventDamage amount')
  | searchDeck (count count' : Option UInt32) (card card' : Option CardKind)
      (affinity affinity' : Option Affinity) :
    SameButAmounts (.searchDeck count card affinity) (.searchDeck count' card' affinity')
  | temporaryHealth (amount amount' : UInt32) :
    SameButAmounts (.temporaryHealth amount) (.temporaryHealth amount')
  | retaliation (amount amount' : UInt32) :
    SameButAmounts (.retaliation amount) (.retaliation amount')
  | discard (count count' : UInt32) (random random' : Bool) :
    SameButAmounts (.discard count random) (.discard count' random')
  | summonToken (token : String) (count count' : UInt32) :
    SameButAmounts (.summonToken token count) (.summonToken token count')

/-- The act with the count that goes without saying: a search is for one card. -/
def Act.spelledOut : Act → Act
  | .searchDeck count card affinity => .searchDeck (some (count.getD 1)) card affinity
  | act => act

namespace Deed

/-- Deeds of one kind that differ in their amounts, and in how long they last, at most. -/
inductive SameButAmounts : Deed → Deed → Prop
  | standing {change change' : Standing} (duration duration' : Duration)
      (same : change.SameButAmounts change') :
    SameButAmounts (.standing change duration) (.standing change' duration')
  | act {what what' : Act} (duration duration' : Option Duration)
      (same : what.SameButAmounts what') :
    SameButAmounts (.act what duration) (.act what' duration')

/-- The deed with the count that goes without saying. -/
def spelledOut : Deed → Deed
  | .act what duration => .act what.spelledOut duration
  | deed => deed

end Deed

namespace Effect

/-- Effects of one kind that differ in their amounts at most. -/
structure SameButAmounts (effect other : Effect) : Prop where
  target : effect.target = other.target
  duration : effect.duration = other.duration
  condition : effect.condition = other.condition
  deed : effect.deed.SameButAmounts other.deed

/-- The effect with the count that goes without saying. -/
def spelledOut (effect : Effect) : Effect := { effect with deed := effect.deed.spelledOut }

end Effect

namespace Describe

/-! ## Words for amounts -/

theorem toList_signed (change : Int32) : (signed change).toList =
    (if change.toInt < 0 then '-' else '+') :: Nat.toDigits 10 change.toInt.natAbs := by
  unfold signed
  split <;> simp

@[simp] theorem words_signed (change : Int32) :
    words (signed change).toList = [(signed change).toList] := by
  refine words_of_solid ⟨by simp [toList_signed], ?_⟩
  rw [toList_signed, List.forall_mem_cons]
  exact ⟨by split <;> decide, (solid_toDigits _).solid⟩

/-- The sign and the size of a change are the whole change, at the lower limit too. -/
@[simp] theorem signed_inj {change change' : Int32} :
    (signed change).toList = (signed change').toList ↔ change = change' := by
  rw [toList_signed, toList_signed, List.cons.injEq, toDigits_injective.eq_iff, ← Int32.toInt_inj]
  constructor
  · rintro ⟨sign, size⟩
    have negative : change.toInt < 0 ↔ change'.toInt < 0 := by
      by_cases minus : change.toInt < 0 <;> by_cases minus' : change'.toInt < 0 <;>
        simp [minus, minus'] at sign ⊢
    omega
  · intro same
    rw [same]
    exact ⟨rfl, rfl⟩

theorem words_label_injective : Function.Injective fun stat : Stat => words stat.label.toList := by
  intro stat stat' same
  cases stat <;> cases stat' <;> first | rfl | exact absurd same (by decide)

theorem words_resource_injective :
    Function.Injective fun resource : Resource => words resource.displayName.toList := by
  intro resource resource' same
  cases resource <;> cases resource' <;> first | rfl | exact absurd same (by decide)

theorem words_formula_injective :
    Function.Injective fun formula : Formula => words formula.phrase.toList := by
  intro formula formula' same
  cases formula <;> cases formula' <;> first | rfl | exact absurd same (by decide)

/-! ## Clauses of standing changes -/

theorem standing_told_apart {target : Target} {change change' : Standing}
    (alike : change.SameButAmounts change')
    (same : wordsOf (standingFragments target change).value =
      wordsOf (standingFragments target change').value) : change = change' := by
  cases alike with
  | refl => rfl
  | modifyStats stat stat' change change' =>
    simp only [standingFragments, Logged.value_bind, Logged.value_pure, wordsOf_cons, wordsOf_nil,
      List.append_cancel_left_eq, List.append_nil, words_signed, List.singleton_append,
      List.cons.injEq, signed_inj] at same
    rw [same.1, words_label_injective same.2]
  | damageReduction amount amount' =>
    simp only [standingFragments, Logged.value_bind, Logged.value_pure, wordsOf_cons, wordsOf_nil,
      List.append_cancel_left_eq, List.append_nil, words_numeral, List.singleton_append,
      List.cons.injEq, numeral_inj, and_true] at same
    rw [same]

/-! ## Clauses of damage -/

/-- The words that say whether damage is piercing, and that it is damage. -/
def damageWords (piercing : Bool) : List (List Char) :=
  wordsOf (if piercing then ["piercing"] else []) ++ words "damage".toList

/-- The words in front of these: the number, where there is one. -/
def numberWords : DamageAmount → List (List Char)
  | .fixed n => words (numeral n).toList
  | .attackValue | .computed _ => []

/-- The words behind them: what the damage is equal to, where it is not a number. -/
def equalWords : DamageAmount → List (List Char)
  | .fixed _ => []
  | .attackValue => words "equal to".toList ++ words "ATK".toList
  | .computed formula => words "equal to".toList ++ words formula.phrase.toList

theorem words_dealDamage (target : Target) (amount : DamageAmount) (piercing : Bool) :
    wordsOf (actFragments target (.dealDamage amount piercing)).value =
      words "deal".toList ++ (numberWords amount ++ (damageWords piercing ++ equalWords amount)) ++
        (words "to".toList ++ words (targetPhrase target).value.toList) := by
  have plain : words "damage to".toList = words "damage".toList ++ words "to".toList := by decide
  have equal : words "damage equal to".toList =
    words "damage".toList ++ words "equal to".toList := by decide
  have attack : words "damage equal to ATK to".toList =
    words "damage".toList ++ words "equal to".toList ++ words "ATK".toList ++
      words "to".toList := by decide
  cases amount <;>
    simp only [actFragments, Logged.value_bind, Logged.value_pure, wordsOf_cons, wordsOf_nil,
      wordsOf_append, List.append_nil, List.nil_append, List.append_assoc, plain, equal, attack,
      numberWords, damageWords, equalWords]

theorem damageWords_true : damageWords true = ["piercing".toList, "damage".toList] := by decide

theorem damageWords_false : damageWords false = ["damage".toList] := by decide

theorem piercing_told_apart {piercing piercing' : Bool} {rest rest' : List (List Char)}
    (same : damageWords piercing ++ rest = damageWords piercing' ++ rest') :
    piercing = piercing' ∧ rest = rest' := by
  have other : "piercing".toList ≠ "damage".toList := by decide
  cases piercing <;> cases piercing' <;>
    simp only [damageWords_true, damageWords_false, List.cons_append, List.nil_append,
      List.cons.injEq, true_and] at same
  · exact ⟨rfl, same⟩
  · exact absurd same.1.symm other
  · exact absurd same.1 other
  · exact ⟨rfl, same⟩

theorem numeral_ne_damageWords {n : UInt32} {piercing : Bool} {rest rest' : List (List Char)} :
    words (numeral n).toList ++ rest ≠ damageWords piercing ++ rest' := by
  intro same
  rw [words_numeral] at same
  cases piercing with
  | true =>
    rw [damageWords_true] at same
    exact numeral_ne (c := 'p') (by decide) (by decide) (List.cons.inj same).1
  | false =>
    rw [damageWords_false] at same
    exact numeral_ne (c := 'd') (by decide) (by decide) (List.cons.inj same).1

theorem words_formula_ne_attack (formula : Formula) :
    words formula.phrase.toList ≠ words "ATK".toList := by
  cases formula <;> decide

theorem damage_told_apart {target : Target} {amount amount' : DamageAmount}
    {piercing piercing' : Bool}
    (same : wordsOf (actFragments target (.dealDamage amount piercing)).value =
      wordsOf (actFragments target (.dealDamage amount' piercing')).value) :
    amount = amount' ∧ piercing = piercing' := by
  rw [words_dealDamage, words_dealDamage, List.append_cancel_right_eq,
    List.append_cancel_left_eq] at same
  match amount, amount' with
  | .fixed n, .fixed n' =>
    obtain ⟨number, kind⟩ := List.append_inj same (by simp [numberWords])
    have numbers : n = n' := by simpa [numberWords] using number
    exact ⟨congrArg _ numbers, (piercing_told_apart kind).1⟩
  | .fixed n, .attackValue | .fixed n, .computed formula => exact absurd same numeral_ne_damageWords
  | .attackValue, .fixed n | .computed formula, .fixed n =>
    exact absurd same.symm numeral_ne_damageWords
  | .attackValue, .attackValue => exact ⟨rfl, (piercing_told_apart same).1⟩
  | .attackValue, .computed formula =>
    have source := List.append_cancel_left (piercing_told_apart same).2
    exact absurd source.symm (words_formula_ne_attack formula)
  | .computed formula, .attackValue =>
    have source := List.append_cancel_left (piercing_told_apart same).2
    exact absurd source (words_formula_ne_attack formula)
  | .computed formula, .computed formula' =>
    obtain ⟨kind, source⟩ := piercing_told_apart same
    exact ⟨congrArg _ (words_formula_injective (List.append_cancel_left source)), kind⟩

/-! ## Clauses of healing -/

/-- The words for an amount of healing that is not all that is missing. -/
def healedWords : HealAmount → List (List Char)
  | .full => []
  | .fixed n => words (numeral n).toList ++ words "HP".toList
  | .computed formula => words "HP".toList ++ words "equal to".toList ++
    words formula.phrase.toList

theorem words_heal_full (target : Target) :
    wordsOf (actFragments target (.heal .full)).value =
      words "fully heal".toList ++ words (targetPhrase target).value.toList := by
  simp only [actFragments, Logged.value_bind, Logged.value_pure, wordsOf_cons, wordsOf_nil,
    List.append_nil]

theorem words_heal {amount : HealAmount} (partly : amount ≠ .full) (target : Target) :
    wordsOf (actFragments target (.heal amount)).value =
      words "heal".toList ++ (words (targetPhrase target).value.toList ++
        (words "by".toList ++ healedWords amount)) := by
  have equal : words "by HP equal to".toList =
    words "by".toList ++ (words "HP".toList ++ words "equal to".toList) := by decide
  cases amount with
  | full => exact absurd rfl partly
  | fixed | computed =>
    simp only [actFragments, Logged.value_bind, Logged.value_pure, wordsOf_cons, wordsOf_nil,
      List.append_nil, List.append_assoc, equal, healedWords]

theorem fully_ne_heal {rest rest' : List (List Char)} :
    words "fully heal".toList ++ rest ≠ words "heal".toList ++ rest' := by
  have fully : words "fully heal".toList = ["fully".toList, "heal".toList] := by decide
  have heal : words "heal".toList = ["heal".toList] := by decide
  have other : "fully".toList ≠ "heal".toList := by decide
  rw [fully, heal]
  exact fun same => other (List.cons.inj same).1

theorem numeral_ne_HP {n : UInt32} {rest rest' : List (List Char)} :
    words (numeral n).toList ++ rest ≠ words "HP".toList ++ rest' := by
  have points : words "HP".toList = ["HP".toList] := by decide
  rw [words_numeral, points]
  exact fun same => numeral_ne (c := 'H') (by decide) (by decide) (List.cons.inj same).1

theorem heal_told_apart {target : Target} {amount amount' : HealAmount}
    (same : wordsOf (actFragments target (.heal amount)).value =
      wordsOf (actFragments target (.heal amount')).value) : amount = amount' := by
  by_cases full : amount = .full <;> by_cases full' : amount' = .full
  · rw [full, full']
  · rw [full, words_heal_full, words_heal full'] at same
    exact absurd same fully_ne_heal
  · rw [full', words_heal_full, words_heal full] at same
    exact absurd same.symm fully_ne_heal
  · rw [words_heal full, words_heal full', List.append_cancel_left_eq, List.append_cancel_left_eq,
      List.append_cancel_left_eq] at same
    match amount, amount' with
    | .fixed n, .fixed n' =>
      have number := List.append_cancel_right same
      have numbers : n = n' := by simpa using number
      exact congrArg _ numbers
    | .fixed n, .computed formula =>
      rw [healedWords, healedWords, List.append_assoc] at same
      exact absurd same numeral_ne_HP
    | .computed formula, .fixed n =>
      rw [healedWords, healedWords, List.append_assoc] at same
      exact absurd same.symm numeral_ne_HP
    | .computed formula, .computed formula' =>
      exact congrArg _ (words_formula_injective (List.append_cancel_left same))

/-! ## Clauses of searches -/

theorem words_element_injective : Function.Injective fun affinity : Option Affinity =>
    wordsOf (affinity.map Affinity.displayName).toList := by
  intro affinity affinity' same
  match affinity, affinity' with
  | none, none => rfl
  | none, some a | some a, none => cases a <;> exact absurd same (by decide)
  | some a, some a' => cases a <;> cases a' <;> first | rfl | exact absurd same (by decide)

/-- The noun for cards of a kind, in the number that a count takes. -/
def cardNoun (single : Bool) (card : Option CardKind) : String :=
  if single then (card.map CardKind.singular).getD "card"
  else (card.map CardKind.plural).getD "cards"

theorem words_cardNoun_injective (single : Bool) :
    Function.Injective fun card => words (cardNoun single card).toList := by
  intro card card' same
  match card, card' with
  | none, none => rfl
  | none, some c | some c, none => cases single <;> cases c <;> exact absurd same (by decide)
  | some c, some c' =>
    cases single <;> cases c <;> cases c' <;> first | rfl | exact absurd same (by decide)

theorem length_words_cardNoun (single : Bool) (card : Option CardKind) :
    (words (cardNoun single card).toList).length = 1 := by
  match card with
  | none => cases single <;> decide
  | some c => cases single <;> cases c <;> decide

/-- What is in front of the elements and the cards in a search for some. -/
def searchLead (count : UInt32) (affinity : Option Affinity) : String :=
  if count = 1 then (if affinity.any Affinity.takesAn then "an" else "a") else numeral count

theorem wordsOf_searchFragments (count : Option UInt32) (card : Option CardKind)
    (affinity : Option Affinity) :
    wordsOf (searchFragments count card affinity) =
      words (searchLead (count.getD 1) affinity).toList ++
        (wordsOf (affinity.map Affinity.displayName).toList ++
          words (cardNoun (count.getD 1 = 1) card).toList) := by
  unfold searchFragments searchLead cardNoun
  by_cases single : count.getD 1 = 1
  · simp only [single, if_true, decide_true, wordsOf_cons, wordsOf_append, wordsOf_nil,
      List.cons_append, List.append_nil]
  · simp only [single, if_false, decide_false, Bool.false_eq_true, wordsOf_cons, wordsOf_append,
      wordsOf_nil, List.cons_append, List.append_nil]

/-- The article of a single card is a word, and no number. -/
theorem words_searchLead (count : UInt32) (affinity : Option Affinity) :
    ∃ lead, words (searchLead count affinity).toList = [lead] ∧
      if count = 1 then 'a' ∈ lead else lead = (numeral count).toList := by
  unfold searchLead
  split
  · split
    · exact ⟨"an".toList, by decide, by decide⟩
    · exact ⟨"a".toList, by decide, by decide⟩
  · exact ⟨_, words_numeral count, rfl⟩

theorem search_told_apart {count count' : Option UInt32} {card card' : Option CardKind}
    {affinity affinity' : Option Affinity}
    (same : wordsOf (searchFragments count card affinity) =
      wordsOf (searchFragments count' card' affinity')) :
    count.getD 1 = count'.getD 1 ∧ card = card' ∧ affinity = affinity' := by
  obtain ⟨lead, first, own⟩ := words_searchLead (count.getD 1) affinity
  obtain ⟨lead', first', own'⟩ := words_searchLead (count'.getD 1) affinity'
  rw [wordsOf_searchFragments, wordsOf_searchFragments, first, first', List.singleton_append,
    List.singleton_append] at same
  obtain ⟨rfl, rest⟩ := List.cons.inj same
  have counts : count.getD 1 = count'.getD 1 := by
    split at own <;> split at own'
    · rename_i single single'
      rw [single, single']
    · exact absurd own'.symm (numeral_ne own (by decide))
    · exact absurd own.symm (numeral_ne own' (by decide))
    · exact numeral_inj.1 (own.symm.trans own')
  rw [counts] at rest
  obtain ⟨element, noun⟩ := List.append_inj' rest
    (by rw [length_words_cardNoun, length_words_cardNoun])
  exact ⟨counts, words_cardNoun_injective _ noun, words_element_injective element⟩

/-! ## Clauses of acts -/

theorem numeral_eq_of_words {n n' : UInt32} {rest rest' : List (List Char)}
    (same : words (numeral n).toList ++ rest = words (numeral n').toList ++ rest') : n = n' := by
  rw [words_numeral, words_numeral] at same
  exact numeral_inj.1 (List.cons.inj same).1

/-- How many, where no number stands for all. -/
def quantity (count : Option UInt32) : String := (count.map numeral).getD "all"

theorem quantity_eq_of_words {count count' : Option UInt32} {rest rest' : List (List Char)}
    (same : words (quantity count).toList ++ rest = words (quantity count').toList ++ rest') :
    count = count' := by
  have every : words (quantity none).toList = ["all".toList] := by decide
  have some (n : UInt32) : words (quantity (some n)).toList = [(numeral n).toList] :=
    words_numeral n
  have other (n : UInt32) : (numeral n).toList ≠ "all".toList :=
    numeral_ne (c := 'a') (by decide) (by decide)
  match count, count' with
  | none, none => rfl
  | .some n, .some n' => exact congrArg _ (numeral_eq_of_words same)
  | none, .some n =>
    rw [every, some] at same
    exact absurd (List.cons.inj same).1.symm (other n)
  | .some n, none =>
    rw [every, some] at same
    exact absurd (List.cons.inj same).1 (other n)

theorem words_removeCounter (target : Target) (counter : Option Counter) (count : Option UInt32) :
    ∃ rest, wordsOf (actFragments target (.removeCounter counter count)).value =
      words "remove".toList ++ (words (quantity count).toList ++ rest) := by
  have every : words "remove all".toList = words "remove".toList ++ words "all".toList := by decide
  have everyCounter : words "remove all counters from".toList =
    words "remove".toList ++ (words "all".toList ++ words "counters from".toList) := by decide
  match counter, count with
  | none, none =>
    simp only [actFragments, Logged.value_bind, Logged.value_pure, wordsOf_cons, everyCounter,
      List.append_assoc]
    exact ⟨_, rfl⟩
  | none, some n =>
    simp only [actFragments, Logged.value_bind, Logged.value_pure, wordsOf_cons, counted,
      words_append_space, List.append_assoc]
    exact ⟨_, rfl⟩
  | some counter, none =>
    simp only [actFragments, Logged.value_bind, Logged.value_pure, wordsOf_cons, every,
      List.append_assoc]
    exact ⟨_, rfl⟩
  | some counter, some n =>
    simp only [actFragments, Logged.value_bind, Logged.value_pure, wordsOf_cons]
    exact ⟨_, rfl⟩

theorem discard_told_apart {target : Target} {count count' : UInt32} {random random' : Bool}
    (same : wordsOf (actFragments target (.discard count random)).value =
      wordsOf (actFragments target (.discard count' random')).value) :
    count = count' ∧ random = random' := by
  simp only [actFragments, Logged.value_pure, wordsOf_append, wordsOf_cons, wordsOf_nil,
    words_counted, List.append_cancel_left_eq, List.cons_append, List.cons.injEq,
    numeral_inj] at same
  obtain ⟨rfl, how⟩ := same
  rw [List.append_cancel_left_eq] at how
  refine ⟨rfl, ?_⟩
  cases random <;> cases random' <;> first | rfl | exact absurd how (by decide)

theorem act_told_apart {target : Target} {act act' : Act} (alike : act.SameButAmounts act')
    (same : wordsOf (actFragments target act).value = wordsOf (actFragments target act').value) :
    act.spelledOut = act'.spelledOut := by
  cases alike with
  | refl => rfl
  | dealDamage amount amount' piercing piercing' =>
    obtain ⟨rfl, rfl⟩ := damage_told_apart same
    rfl
  | heal amount amount' =>
    obtain rfl := heal_told_apart same
    rfl
  | drawCards count count' =>
    have counts : count = count' := by
      cases opponent : target.isOpponent <;>
        simp only [actFragments, opponent, Logged.value_pure, if_true, Bool.false_eq_true,
          if_false, wordsOf_cons, List.append_cancel_left_eq, words_counted, wordsOf_nil,
          List.append_nil, List.cons.injEq, numeral_inj] at same <;>
        exact same.1
    rw [counts]
  | applyCounter counter count count' =>
    simp only [actFragments, Logged.value_bind, Logged.value_pure, wordsOf_cons,
      List.append_cancel_left_eq] at same
    rw [numeral_eq_of_words same]
  | removeCounter counter count count' =>
    obtain ⟨rest, own⟩ := words_removeCounter target counter count
    obtain ⟨rest', own'⟩ := words_removeCounter target counter count'
    rw [own, own', List.append_cancel_left_eq] at same
    rw [quantity_eq_of_words same]
  | cannotBeTargeted sources threshold threshold' => rw [(protection_told_apart same).2]
  | gainResource resource resource' amount amount' =>
    simp only [actFragments, Logged.value_pure, wordsOf_cons, wordsOf_nil, List.append_nil,
      List.append_cancel_left_eq, words_numeral, List.singleton_append, List.cons.injEq,
      numeral_inj] at same
    rw [same.1, words_resource_injective same.2]
  | preventDamage amount amount' =>
    simp only [actFragments, Logged.value_bind, Logged.value_pure, wordsOf_cons,
      List.append_cancel_left_eq] at same
    rw [quantity_eq_of_words same]
  | searchDeck count count' card card' affinity affinity' =>
    simp only [actFragments, Logged.value_pure, wordsOf_cons, List.append_cancel_left_eq] at same
    obtain ⟨counts, rfl, rfl⟩ := search_told_apart same
    simp only [Act.spelledOut, counts]
  | temporaryHealth amount amount' =>
    simp only [actFragments, Logged.value_bind, Logged.value_pure, wordsOf_cons,
      List.append_cancel_left_eq] at same
    rw [numeral_eq_of_words same]
  | retaliation amount amount' =>
    simp only [actFragments, Logged.value_bind, Logged.value_pure, wordsOf_cons,
      List.append_cancel_left_eq] at same
    rw [numeral_eq_of_words same]
  | discard count count' random random' =>
    obtain ⟨rfl, rfl⟩ := discard_told_apart same
    rfl
  | summonToken token count count' =>
    simp only [actFragments, Logged.value_pure, wordsOf_cons, List.append_cancel_left_eq] at same
    rw [numeral_eq_of_words same]

/-- A count that goes without saying is described as if it were spelled out. -/
theorem actFragments_spelledOut (target : Target) (act : Act) :
    actFragments target act.spelledOut = actFragments target act := by
  cases act <;> rfl

theorem deedFragments_spelledOut (target : Target) (deed : Deed) :
    deedFragments target deed.spelledOut = deedFragments target deed := by
  cases deed with
  | standing change duration => rfl
  | act what duration => exact actFragments_spelledOut target what

/-! ## Clauses of effects -/

theorem deed_told_apart {target : Target} {deed deed' : Deed} (alike : deed.SameButAmounts deed')
    (duration : deed.duration = deed'.duration)
    (same : wordsOf (deedFragments target deed).value =
      wordsOf (deedFragments target deed').value) : deed.spelledOut = deed'.spelledOut := by
  cases alike with
  | standing d d' alike =>
    obtain rfl := standing_told_apart alike same
    obtain rfl : d = d' := Option.some.inj duration
    rfl
  | act d d' alike =>
    obtain rfl : d = d' := duration
    simp only [Deed.spelledOut, act_told_apart alike same]

theorem effect_told_apart_iff {effect other : Effect} (alike : effect.SameButAmounts other) :
    (effectText effect).value = (effectText other).value ↔
      effect.spelledOut = other.spelledOut := by
  rw [effectText, effectText, clause_eq_iff_of_deed alike.duration alike.condition, alike.target]
  constructor
  · intro same
    have deeds := deed_told_apart alike.deed alike.duration same
    simp only [Effect.spelledOut, alike.target, alike.condition, deeds]
  · intro same
    have deeds : effect.deed.spelledOut = other.deed.spelledOut := congrArg Effect.deed same
    rw [← deedFragments_spelledOut, deeds, deedFragments_spelledOut]

/-! ## Phrases of costs -/

/-- Whether the second word of a text is an amount: its number, or the article that stands for a
single one. -/
def CountsSecond (text : String) (amount : UInt32) : Prop :=
  ∃ verb word rest, words text.toList = verb :: word :: rest ∧
    (word = (numeral amount).toList ∨ word = "an".toList ∧ amount = 1)

theorem CountsSecond.unique {text : String} {amount amount' : UInt32}
    (counts : CountsSecond text amount) (counts' : CountsSecond text amount') :
    amount = amount' := by
  obtain ⟨verb, word, rest, second, own⟩ := counts
  obtain ⟨verb', word', rest', second', own'⟩ := counts'
  rw [second'] at second
  obtain rfl : word' = word := (List.cons.inj (List.cons.inj second).2).1
  have letter (n : UInt32) : (numeral n).toList ≠ "an".toList :=
    numeral_ne (c := 'a') (by decide) (by decide)
  rcases own with number | ⟨article, one⟩ <;> rcases own' with number' | ⟨article', one'⟩
  · exact numeral_inj.1 (number.symm.trans number')
  · exact absurd (number.symm.trans article') (letter _)
  · exact absurd (number'.symm.trans article) (letter _)
  · exact one.trans one'.symm

theorem countsSecond_of_split {text front back : String} {amount : UInt32} (verb : String)
    (split : text = front ++ (numeral amount ++ back))
    (only : words front.toList = [verb.toList])
    (opens : front.toList.getLast? = some ' ')
    (ends : back.toList.head? = some ' ') : CountsSecond text amount := by
  rw [CountsSecond, split, String.toList_append, String.toList_append,
    words_verb_numeral only opens ends]
  exact ⟨_, _, _, rfl, .inl rfl⟩

theorem costPhrase_countsSecond (cost : Cost) :
    CountsSecond (costPhrase (some cost)) cost.amount := by
  obtain ⟨payment, value⟩ := cost
  cases payment with
  | nectar =>
    exact countsSecond_of_split "Pay" (String.append_assoc ..) (by decide) (by decide)
      (by decide)
  | discard =>
    have split : costPhrase (some ⟨.discard, value⟩) = "Discard " ++ (numeral (value.getD 1) ++
        (" " ++ ((if value.getD 1 = 1 then "card" else "cards") ++ ":"))) := by
      simp only [costPhrase, counted, String.append_assoc]
      rfl
    exact countsSecond_of_split "Discard" split (by decide) (by decide) (by simp)
  | sacrifice =>
    by_cases one : value.getD 1 = 1
    · have single : costPhrase (some ⟨.sacrifice, value⟩) = "Sacrifice an ally:" := if_pos one
      have words : words "Sacrifice an ally:".toList =
        ["Sacrifice".toList, "an".toList, "ally:".toList] := by decide
      rw [CountsSecond, single, words]
      exact ⟨_, _, _, rfl, .inr ⟨rfl, one⟩⟩
    · have split : costPhrase (some ⟨.sacrifice, value⟩) =
          "Sacrifice " ++ (numeral (value.getD 1) ++ " allies:") := by
        simp only [costPhrase, Cost.amount, one, if_false, String.append_assoc]
      exact countsSecond_of_split "Sacrifice" split (by decide) (by decide) (by decide)
  | removeCounter counter =>
    have split : costPhrase (some ⟨.removeCounter counter, value⟩) =
        "Remove " ++ (numeral (value.getD 1) ++ (" " ++ (counter.displayName ++
          if value.getD 1 = 1 then " counter:" else " counters:"))) := by
      simp only [costPhrase, String.append_assoc]
      rfl
    exact countsSecond_of_split "Remove" split (by decide) (by decide) (by simp)

theorem cost_told_apart_iff {cost other : Cost} (paid : cost.payment = other.payment) :
    costPhrase (some cost) = costPhrase (some other) ↔ cost.amount = other.amount := by
  constructor
  · intro same
    have counts := costPhrase_countsSecond other
    rw [← same] at counts
    exact (costPhrase_countsSecond cost).unique counts
  · intro same
    simp only [costPhrase, same, paid]

/-! ## Amounts -/

/-- Effects that differ in their amounts at most have the same clause exactly if the amounts are
the same too; a search without a count is a search for one card. Costs that differ in their amount
at most have the same phrase exactly if that is the same too. -/
theorem amounts_told_apart :
    (∀ effect other : Effect, effect.SameButAmounts other →
      ((effectText effect).value = (effectText other).value ↔
        effect.spelledOut = other.spelledOut)) ∧
    ∀ cost other : Cost, cost.payment = other.payment →
      (costPhrase (some cost) = costPhrase (some other) ↔ cost.amount = other.amount) :=
  ⟨fun _ _ => effect_told_apart_iff, fun _ _ => cost_told_apart_iff⟩

/-- The limits of a change are told apart beside a tag that reads like one of them, and so are three
counters and all of them. The nectar that goes without saying is one. -/
theorem limits_told_apart :
    let hail (change : Int32) : Effect := Effect.modifyStats (.unknown " -2147483648 ") .both change
    let thaw (count : Option UInt32) : Effect :=
      Effect.once (.unknown "all") (.removeCounter (some (.unknown "\t3 ")) count)
    let nectar (value : Option UInt32) : Cost := { payment := .nectar, value }
    (hail Int32.minValue).SameButAmounts (hail Int32.maxValue) ∧
      (effectText (hail Int32.minValue)).value ≠ (effectText (hail Int32.maxValue)).value ∧
      (thaw none).SameButAmounts (thaw (some 3)) ∧
      (effectText (thaw none)).value ≠ (effectText (thaw (some 3))).value ∧
      costPhrase (some (nectar none)) = costPhrase (some (nectar (some 1))) := by
  intro hail thaw nectar
  have changed : (hail Int32.minValue).SameButAmounts (hail Int32.maxValue) :=
    ⟨rfl, rfl, rfl, .standing _ _ (.modifyStats _ _ _ _)⟩
  have counted : (thaw none).SameButAmounts (thaw (some 3)) :=
    ⟨rfl, rfl, rfl, .act _ _ (.removeCounter _ _ _)⟩
  refine ⟨changed, ?_, counted, ?_, (amounts_told_apart.2 _ _ rfl).2 rfl⟩
  · exact fun same => absurd ((amounts_told_apart.1 _ _ changed).1 same) (by decide)
  · exact fun same => absurd ((amounts_told_apart.1 _ _ counted).1 same) (by decide)

end Describe

end RulesText
