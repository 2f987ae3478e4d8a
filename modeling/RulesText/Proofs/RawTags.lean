import RulesText.Proofs.Notes
import RulesText.Proofs.SilentEffects
import RulesText.Proofs.Tidy

/-!
# Raw tags stay visible

A tag without a phrase stands for itself, and its words come through to the text of the ability
side by side: a fragment keeps its words in the clause, the list of clauses puts at most a comma
behind a clause, and a clause is tidy, so that collapsing the sentence leaves it in one piece.
-/

namespace RulesText
open Describe Text

/-! ## What stands for itself -/

/-- Whether an effect names a tag that stands for itself, and where: as its target, unless its kind
says nothing of targets, as the target of redirected damage, as an attack modifier, as a counter
that is put or removed, as a token, or as the counter that its condition asks for. -/
inductive Effect.Names (effect : Effect) (tag : String) : Prop where
  | target (mentioned : effect.kind.namesTarget = true) (raw : effect.target = .unknown tag)
  | recipient {duration : Option Duration}
      (raw : effect.deed = .act (.redirectDamage (.unknown tag)) duration)
  | modifier {duration : Option Duration}
      (raw : effect.deed = .act (.attackModification (.unknown tag)) duration)
  | applied {count : UInt32} {duration : Option Duration}
      (raw : effect.deed = .act (.applyCounter (.unknown tag) count) duration)
  | removed {count : Option UInt32} {duration : Option Duration}
      (raw : effect.deed = .act (.removeCounter (some (.unknown tag)) count) duration)
  | token {count : UInt32} {duration : Option Duration}
      (raw : effect.deed = .act (.summonToken tag count) duration)
  | condition {comparison : Option Comparison}
      (raw : effect.condition = some ⟨.hasCounter, some (.counter (.unknown tag)), comparison⟩)

/-- Whether an ability names a tag that stands for itself: one of its effects does, or it is the
counter that is paid with. -/
inductive Ability.Names (ability : Ability) (tag : String) : Prop where
  | effect {effect : Effect} (listed : effect ∈ ability.effects) (named : effect.Names tag)
  | cost {value : Option UInt32}
      (raw : ability.cost = some ⟨.removeCounter (.unknown tag), value⟩)

namespace Text

/-! ## Showing a tag -/

/-- Whether a text shows a tag: the words of the tag stand in it, with one space between
neighbours. -/
def Shows (text tag : String) : Prop := (collapse tag).toList <:+: text.toList

theorem Shows.trans {text whole tag : String} (shown : Shows text tag)
    (inside : text.toList <:+: whole.toList) : Shows whole tag :=
  List.IsInfix.trans shown inside

/-- A text is called by its words, so it shows a tag that has some of them side by side. -/
theorem shows_collapse {text tag : String} (inside : words tag.toList <:+: words text.toList) :
    Shows (collapse text) tag := by
  rw [Shows, toList_collapse, toList_collapse]
  exact infix_joined inside

/-- Collapsing a text hides no tag. -/
theorem Shows.collapse {text tag : String} (shown : Shows text tag) :
    Shows (collapse text) tag := by
  by_cases blank : Text.collapse tag = ""
  · rw [Shows, blank]
    exact List.nil_infix
  · exact (tidy_collapse blank).infix_collapse shown

/-- A sentence shows what one of its fragments shows. -/
theorem Shows.sentence {fragments : List String} {fragment tag : String}
    (shown : Shows (Text.collapse fragment) tag) (listed : fragment ∈ fragments) :
    Shows (sentence fragments) tag := by
  apply shown.trans
  rw [Text.sentence, toList_collapse, toList_collapse, words_spaced, List.flatMap_def]
  exact infix_joined (List.infix_of_mem_flatten (List.mem_map_of_mem listed))

/-- Words between blanks keep to themselves. -/
theorem infix_words {front back : String} (tag : String)
    (before : front.toList.getLast?.all isBlank = true)
    (behind : back.toList.head?.all isBlank = true) :
    words tag.toList <:+: words (front ++ tag ++ back).toList := by
  rw [Option.all_eq_true] at before behind
  rw [String.toList_append, String.toList_append, words_append_of_head behind,
    words_append_of_last before]
  exact ⟨_, _, rfl⟩

/-! ## Lists -/

theorem infix_series {last : String} {items : List String} {item : String}
    (listed : item ∈ items) : item.toList <:+: (series last items).toList := by
  match items with
  | [only] =>
    obtain rfl := List.mem_singleton.1 listed
    exact List.infix_rfl
  | [first, final] =>
    simp only [series, String.toList_append]
    rcases List.mem_cons.1 listed with rfl | later
    · exact ⟨[], last.toList ++ final.toList, by simp⟩
    · obtain rfl := List.mem_singleton.1 later
      exact (List.suffix_append _ _).isInfix
  | first :: second :: third :: rest =>
    simp only [series, String.toList_append]
    rcases List.mem_cons.1 listed with rfl | later
    · rw [List.append_assoc]
      exact (List.prefix_append _ _).isInfix
    · exact (infix_series later).trans (List.suffix_append _ _).isInfix

/-- Joined clauses have each clause in one piece. -/
theorem infix_clauses {texts : List String} {text : String} (listed : text ∈ texts) :
    text.toList <:+: (clauses texts).toList := by
  unfold clauses
  split
  · exact @infix_series " and " _ _ listed
  · exact infix_series listed

end Text

namespace Describe

/-! ## Tags in clauses -/

/-- An unknown target is a fragment of every deed that names its target. -/
theorem unknown_mem_deedFragments (tag : String) {deed : Deed}
    (mentioned : deed.kind.namesTarget = true) :
    tag ∈ (deedFragments (.unknown tag) deed).value := by
  cases deed with
  | standing change duration =>
    cases change <;> simp [deedFragments, standingFragments, targetPhrase]
  | act what duration =>
    cases what with
    | drawCards | gainResource | discard | searchDeck | summonToken => cases mentioned
    | dealDamage amount piercing =>
      cases amount <;> simp [deedFragments, actFragments, targetPhrase]
    | heal amount => cases amount <;> simp [deedFragments, actFragments, targetPhrase]
    | removeCounter counter count =>
      cases counter <;> cases count <;> simp [deedFragments, actFragments, targetPhrase]
    | swap what => cases what <;> simp [deedFragments, actFragments, targetPhrase]
    | _ => simp [deedFragments, actFragments, targetPhrase]

/-- A clause shows every tag that its effect names. -/
theorem effectText_shows {effect : Effect} {tag : String} (named : effect.Names tag) :
    Shows (effectText effect).value tag := by
  obtain ⟨target, deed, condition⟩ := effect
  rw [effectText, value_clause]
  have whole : Shows (collapse tag) tag := List.infix_rfl
  cases named with
  | target mentioned raw =>
    obtain rfl : target = .unknown tag := raw
    apply whole.sentence
    exact List.mem_append_left _ (unknown_mem_deedFragments tag mentioned)
  | recipient raw | modifier raw | applied raw | token raw =>
    obtain rfl := raw
    apply whole.sentence
    simp [deedFragments, actFragments, targetPhrase, modifierPhrase, Counter.displayName]
  | @removed count _ raw =>
    obtain rfl := raw
    apply whole.sentence
    cases count <;> simp [deedFragments, actFragments, Counter.displayName]
  | condition raw =>
    obtain rfl := raw
    have asked : words tag.toList <:+: words ("if it has a " ++ tag ++ " counter").toList :=
      infix_words tag (by decide) (by decide)
    apply (shows_collapse asked).sentence
    simp [conditionPhrase, Counter.displayName]

/-! ## Tags in descriptions -/

theorem costPhrase_shows (tag : String) (value : Option UInt32) :
    Shows (collapse (costPhrase (some ⟨.removeCounter (.unknown tag), value⟩))) tag := by
  apply shows_collapse
  apply infix_words tag
  · rw [String.toList_append, List.getLast?_append_of_ne_nil _ (by decide)]
    decide
  · split <;> decide

/-- The sentence about an ability shows every tag that the ability names. -/
theorem spoken_shows {ability : Ability} {tag : String} (named : ability.Names tag) :
    Shows (spoken .canonical ability).value tag := by
  rw [value_spoken]
  cases named with
  | @cost value raw =>
    apply (costPhrase_shows tag value).sentence
    simp [raw]
  | @effect effect listed named =>
    have own : (effectText effect).value ∈ clauseTexts .canonical ability :=
      List.mem_map_of_mem listed
    have joined : Shows (clauses (clauseTexts .canonical ability)) tag :=
      (effectText_shows named).trans (infix_clauses own)
    exact joined.collapse.sentence (by simp)

/-- The text of an ability shows every tag that the ability names: the words of the tag stand in it
with single spaces between them. -/
theorem describe_shows {ability : Ability} {tag : String} (named : ability.Names tag) :
    Shows (describe .canonical ability).value tag := by
  have spoke := spoken_shows named
  rw [value_describe]
  split
  · rename_i silent
    rw [Shows, silent] at spoke
    rw [Shows, List.infix_nil.1 spoke]
    exact List.nil_infix
  · exact spoke

/-- A counter with blanks of its own, a target that takes a comma, and the counter of a
condition. -/
theorem thicket_shows :
    let gate : Condition := ⟨.hasCounter, some (.counter (.unknown "deep\nroot")), none⟩
    let thicket : Ability :=
      { name := "Thicket"
        cost := some { payment := .removeCounter (.unknown " dry  thorn ") }
        effects := [Effect.draw 1, Effect.destroy (.unknown "\tfront\u3000row "),
          (Effect.gainNectar 1).gatedBy gate] }
    let text := (describe .canonical thicket).value
    (thicket.Names " dry  thorn " ∧ "dry thorn".toList <:+: text.toList) ∧
      (thicket.Names "\tfront\u3000row " ∧ "front row".toList <:+: text.toList) ∧
      thicket.Names "deep\nroot" ∧ "deep root".toList <:+: text.toList := by
  intro gate thicket text
  have paid : thicket.Names " dry  thorn " := .cost rfl
  have aimed : thicket.Names "\tfront\u3000row " :=
    .effect (List.mem_cons_of_mem _ List.mem_cons_self) (.target rfl rfl)
  have asked : thicket.Names "deep\nroot" :=
    .effect (List.mem_cons_of_mem _ (List.mem_cons_of_mem _ List.mem_cons_self)) (.condition rfl)
  have dry : collapse " dry  thorn " = "dry thorn" := by decide
  have front : collapse "\tfront\u3000row " = "front row" := by decide
  have deep : collapse "deep\nroot" = "deep root" := by decide
  have shown := describe_shows paid
  have shown' := describe_shows aimed
  have shown'' := describe_shows asked
  rw [Shows, dry] at shown
  rw [Shows, front] at shown'
  rw [Shows, deep] at shown''
  exact ⟨⟨paid, shown⟩, ⟨aimed, shown'⟩, asked, shown''⟩

end Describe

end RulesText
