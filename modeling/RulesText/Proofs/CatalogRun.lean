import RulesText.Catalog.View

/-!
# Runs of a catalog

A catalog keeps its abilities in an array and finds them through an index. Whatever is done to it,
in any order and with any success, it answers as a plain list that is searched from its beginning:
`Listing` is that list, with the same operations and no index.
-/

namespace RulesText
open Describe Format Json

/-- What may be done to a catalog. -/
inductive Operation where
  | load (text : String)
  | register (ability : Ability)
  | reload
  | clear

namespace Catalog

/-- The catalog after an operation and what is logged meanwhile, or why the operation fails. -/
def attempt (catalog : Catalog) : Operation → Except CatalogFault (Logged Catalog)
  | .load text => load text
  | .register ability => (catalog.register ability).map pure
  | .reload => load catalog.toText
  | .clear => .ok (pure empty)

/-- The catalog after an operation; one that fails leaves it alone. -/
def step (catalog : Catalog) (operation : Operation) : Catalog :=
  match catalog.attempt operation with
  | .ok next => next.value
  | .error _ => catalog

/-- The catalog after some operations on the empty one. -/
def run (operations : List Operation) : Catalog := operations.foldl step empty

end Catalog

/-! ## The plain list -/

namespace Listing

/-- The list with one more ability behind the others, unless one of them has its name. -/
def register (listed : List Ability) (ability : Ability) : Except CatalogFault (List Ability) :=
  if listed.any (·.name == ability.name) then .error (.duplicate ability.name)
  else .ok (listed ++ [ability])

/-- Loads a list from the text of an array of abilities. -/
def load (text : String) : Except CatalogFault (Logged (List Ability)) := do
  let abilities ← ((list Ability.read).ofText text).mapError .data
  let listed ← abilities.foldlM register []
  pure do
    .note (.loaded listed.length)
    pure listed

/-- The text of a list, laid out over lines. -/
def toText (listed : List Ability) : String := (Json.array (listed.map Ability.toJson)).pretty

/-- The list after an operation and what is logged meanwhile, or why the operation fails. -/
def attempt (listed : List Ability) : Operation → Except CatalogFault (Logged (List Ability))
  | .load text => load text
  | .register ability => (register listed ability).map pure
  | .reload => load (toText listed)
  | .clear => .ok (pure [])

/-- The list after an operation; one that fails leaves it alone. -/
def step (listed : List Ability) (operation : Operation) : List Ability :=
  match attempt listed operation with
  | .ok next => next.value
  | .error _ => listed

/-- The list after some operations on the empty one. -/
def run (operations : List Operation) : List Ability := operations.foldl step []

end Listing

namespace Catalog

/-! ## The catalog follows the list -/

theorem register_toList (catalog : Catalog) (ability : Ability) :
    (catalog.register ability).map toList = Listing.register catalog.toList ability := by
  unfold register Listing.register
  rw [← contains_eq_any]
  by_cases taken : catalog.contains ability.name
  · rw [dif_pos taken, if_pos taken]
    rfl
  · rw [dif_neg taken, if_neg taken]
    simp [Except.map, toList]

theorem foldlM_toList (abilities : List Ability) (catalog : Catalog) :
    (abilities.foldlM register catalog).map toList =
      abilities.foldlM Listing.register catalog.toList := by
  induction abilities generalizing catalog with
  | nil => rfl
  | cons ability abilities ih =>
    have first := catalog.register_toList ability
    rw [List.foldlM_cons, List.foldlM_cons, ← first]
    cases catalog.register ability with
    | error fault => rfl
    | ok next => exact ih next

theorem load_toList (text : String) :
    (load text).map (toList <$> ·) = Listing.load text := by
  unfold load Listing.load
  cases ((list Ability.read).ofText text).mapError CatalogFault.data with
  | error fault => rfl
  | ok abilities =>
    have folded : (ofList abilities).map toList = abilities.foldlM Listing.register [] :=
      foldlM_toList abilities empty
    simp only [bind, Except.bind, ← folded]
    cases ofList abilities with
    | error fault => rfl
    | ok catalog => rfl

/-- An operation does to a catalog what it does to its list, with the same fault if it fails. -/
theorem attempt_toList (catalog : Catalog) (operation : Operation) :
    (catalog.attempt operation).map (toList <$> ·) = Listing.attempt catalog.toList operation := by
  cases operation with
  | load text => exact load_toList text
  | register ability =>
    rw [attempt, Listing.attempt, ← register_toList]
    cases catalog.register ability <;> rfl
  | reload => exact load_toList catalog.toText
  | clear => rfl

theorem step_toList (catalog : Catalog) (operation : Operation) :
    (catalog.step operation).toList = Listing.step catalog.toList operation := by
  unfold step Listing.step
  rw [← attempt_toList]
  cases catalog.attempt operation <;> rfl

theorem run_toList (operations : List Operation) :
    (run operations).toList = Listing.run operations := by
  have each : ∀ catalog : Catalog, (operations.foldl step catalog).toList =
      operations.foldl Listing.step catalog.toList := by
    induction operations with
    | nil => exact fun _ => rfl
    | cons operation operations ih =>
      intro catalog
      rw [List.foldl_cons, List.foldl_cons, ← step_toList]
      exact ih (catalog.step operation)
  exact each empty

/-! ## The catalog answers as the list -/

/-- What a catalog answers if it holds the abilities of a list. -/
structure AnswersAs (catalog : Catalog) (listed : List Ability) : Prop where
  toList : catalog.toList = listed
  names : (listed.map Ability.name).Nodup
  indexed : ∀ (name : String) (position : Nat), catalog.index[name]? = some position ↔
    ∃ inside : position < listed.length, listed[position].name = name
  get : ∀ name, catalog.get? name = listed.find? (·.name == name)
  found : ∀ name ability, catalog.get? name = some ability ↔
    ability ∈ listed ∧ ability.name = name
  contains : ∀ name, catalog.contains name = (catalog.get? name).isSome
  size : catalog.size = listed.length
  isEmpty : catalog.isEmpty = listed.isEmpty
  text : catalog.toText = Listing.toText listed
  described : ∀ config, (catalog.describeAll config).value =
    listed.map fun ability => (ability.name, (describe config ability).value)
  rendered : ∀ config, (catalog.describeAll config).notes =
    listed.flatMap fun ability => (describe config ability).notes
  audited : catalog.audit.value =
    listed.flatMap fun ability => ability.audit.value.map (ability.name, ·)
  examined : catalog.audit.notes = listed.flatMap fun ability => ability.audit.notes

/-- A catalog answers as the list of its abilities. -/
theorem answersAs (catalog : Catalog) : AnswersAs catalog catalog.toList where
  toList := rfl
  names := catalog.nodup_names
  indexed := catalog.index_position
  get := catalog.get?_eq_find?
  found := catalog.get?_eq_some_iff
  contains := catalog.contains_eq_isSome
  size := by simp [size, toList]
  isEmpty := by simp [isEmpty, toList]
  text := rfl
  described config := by simp [describeAll]
  rendered config := by simp [describeAll]
  audited := by simp [audit, List.flatMap_def]
  examined := by simp [audit]

theorem run_concat (operations : List Operation) (operation : Operation) :
    run (operations ++ [operation]) = (run operations).step operation := by
  simp [run]

theorem step_of_error {catalog : Catalog} {operation : Operation} {fault : CatalogFault}
    (failed : catalog.attempt operation = .error fault) : catalog.step operation = catalog := by
  simp [step, failed]

/-- After any operations, in any order and with any success, the catalog answers as the plain list
after the same operations, and a further operation succeeds or fails on both alike. Registering a
name that is listed is refused, and any other ability is added behind the others. An operation that
fails leaves the catalog as it was. -/
theorem run_answers (operations : List Operation) :
    AnswersAs (run operations) (Listing.run operations) ∧
    (∀ operation, ((run operations).attempt operation).map (toList <$> ·) =
      Listing.attempt (Listing.run operations) operation) ∧
    (∀ ability, ability.name ∈ (Listing.run operations).map Ability.name →
      (run operations).register ability = .error (.duplicate ability.name)) ∧
    (∀ ability, ability.name ∉ (Listing.run operations).map Ability.name →
      ∃ next, (run operations).register ability = .ok next ∧
        next.toList = Listing.run operations ++ [ability]) ∧
    ∀ operation fault, (run operations).attempt operation = .error fault →
      run (operations ++ [operation]) = run operations := by
  rw [← run_toList operations]
  refine ⟨answersAs _, attempt_toList _, fun _ => register_taken, fun _ => register_fresh, ?_⟩
  intro operation fault failed
  rw [run_concat, step_of_error failed]

end Catalog

end RulesText
