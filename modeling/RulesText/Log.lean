import RulesText.Vocabulary.Condition

/-!
# What is logged

Rendering and loading note what a maintainer may want to know: a tag without a phrase, a condition
without its number, a finished text, a loaded catalog. The notes of a computation are part of its
result, in the order in which they were made.
-/

namespace RulesText
open Format Text

/-- How much a note matters. -/
inductive Level where
  | trace
  | debug
  | info
  deriving DecidableEq, Repr

/-- Something worth noting. -/
inductive Note where
  | triggerWithoutPhrase (tag : String)
  | targetWithoutPhrase (tag : String)
  | modifierWithoutPhrase (tag : String)
  | conditionWithoutNumber (kind : ConditionKind)
  | described (name : String) (text : String)
  | loaded (count : Nat)
  deriving DecidableEq, Repr

namespace Note

/-- How much the note matters. -/
def level : Note → Level
  | .triggerWithoutPhrase _ | .targetWithoutPhrase _ | .modifierWithoutPhrase _
  | .conditionWithoutNumber _ => .debug
  | .described _ _ => .trace
  | .loaded _ => .info

/-- The wording of a note. -/
def message : Note → String
  | .triggerWithoutPhrase tag => "no phrase for trigger " ++ ticked tag ++ ", omitting prefix"
  | .targetWithoutPhrase tag => "no phrase for target " ++ ticked tag ++ ", using raw tag"
  | .modifierWithoutPhrase tag =>
    "no phrase for attack modifier " ++ ticked tag ++ ", using raw tag"
  | .conditionWithoutNumber kind =>
    "numeric condition " ++ ticked kind.spelling ++ " has no number, using raw tag"
  | .described name text => "described " ++ ticked name ++ " as " ++ ticked text
  | .loaded count => "loaded " ++ toString count ++ " abilities from JSON"

end Note

/-- A value and the notes made on the way to it. -/
structure Logged (α : Type) where
  value : α
  notes : List Note
  deriving DecidableEq, Repr

namespace Logged

/-- A single note. -/
def note (entry : Note) : Logged Unit := ⟨(), [entry]⟩

instance : Monad Logged where
  pure a := ⟨a, []⟩
  bind x f := ⟨(f x.value).value, x.notes ++ (f x.value).notes⟩

variable {α β : Type}

/-- Two computations with the same value and the same notes are the same. -/
theorem ext {x y : Logged α} (value : x.value = y.value) (notes : x.notes = y.notes) : x = y := by
  cases x
  cases y
  exact (Logged.mk.injEq ..).mpr ⟨value, notes⟩

@[simp] theorem value_pure (a : α) : (pure a : Logged α).value = a := rfl

@[simp] theorem notes_pure (a : α) : (pure a : Logged α).notes = [] := rfl

@[simp] theorem value_bind (x : Logged α) (f : α → Logged β) :
    (x >>= f).value = (f x.value).value := rfl

@[simp] theorem notes_bind (x : Logged α) (f : α → Logged β) :
    (x >>= f).notes = x.notes ++ (f x.value).notes := rfl

@[simp] theorem notes_note (entry : Note) : (note entry).notes = [entry] := rfl

instance : LawfulMonad Logged := LawfulMonad.mk' Logged
  (fun x => by cases x; simp [Functor.map])
  (fun a f => by simp [bind, pure])
  (fun x f g => by simp [bind])

@[simp] theorem value_map (f : α → β) (x : Logged α) : (f <$> x).value = f x.value := rfl

@[simp] theorem notes_map (f : α → β) (x : Logged α) : (f <$> x).notes = x.notes := by
  rw [map_eq_pure_bind, notes_bind, notes_pure, List.append_nil]

@[simp] theorem value_mapM (f : α → Logged β) (items : List α) :
    (items.mapM f).value = items.map fun a => (f a).value := by
  induction items with
  | nil => rfl
  | cons a items ih => simp [ih]

@[simp] theorem notes_mapM (f : α → Logged β) (items : List α) :
    (items.mapM f).notes = items.flatMap fun a => (f a).notes := by
  induction items with
  | nil => rfl
  | cons a items ih => simp [ih]

end Logged

end RulesText
