import Std.Data.HashMap
import RulesText.Ability.Audit
import RulesText.Ability.Format
import RulesText.Json.Printer

/-!
# Catalogs

A catalog holds abilities in the order in which they were registered and finds them by their
names, which are all different.
-/

namespace RulesText
open Describe Format Json Text

/-- Why a catalog cannot be loaded or an ability not be registered. -/
inductive CatalogFault where
  | data (fault : Fault)
  | duplicate (name : String)
  deriving DecidableEq, Repr

/-- The wording of a fault. -/
def CatalogFault.message : CatalogFault → String
  | .data fault => "malformed ability data: " ++ fault.message
  | .duplicate name => "ability " ++ ticked name ++ " is already registered"

/-- Abilities in order, and where each name stands among them. -/
structure Catalog where
  abilities : Array Ability
  index : Std.HashMap String Nat
  index_iff : ∀ (name : String) (position : Nat), index[name]? = some position ↔
    ∃ ability, abilities[position]? = some ability ∧ ability.name = name

namespace Catalog

/-- The catalog without abilities. -/
def empty : Catalog := ⟨#[], ∅, by simp⟩

/-- The abilities in the order of their registration. -/
def toList (catalog : Catalog) : List Ability := catalog.abilities.toList

/-- How many abilities there are. -/
def size (catalog : Catalog) : Nat := catalog.abilities.size

/-- Whether there is no ability. -/
def isEmpty (catalog : Catalog) : Bool := catalog.abilities.isEmpty

/-- Whether a name is taken. -/
def contains (catalog : Catalog) (name : String) : Bool := catalog.index.contains name

/-- The ability of a name. -/
def get? (catalog : Catalog) (name : String) : Option Ability :=
  catalog.index[name]?.bind (catalog.abilities[·]?)

/-- The index stays exact when an ability with a new name is added behind the others. -/
theorem index_iff_push {catalog : Catalog} {ability : Ability}
    (fresh : ¬ catalog.contains ability.name) (name : String) (position : Nat) :
    (catalog.index.insert ability.name catalog.abilities.size)[name]? = some position ↔
      ∃ found, (catalog.abilities.push ability)[position]? = some found ∧ found.name = name := by
  have absent : catalog.index[ability.name]? = none := by
    simpa [contains] using fresh
  rw [Std.HashMap.getElem?_insert, Array.getElem?_push]
  by_cases same : ability.name = name
  · subst same
    by_cases last : position = catalog.abilities.size
    · simp [last]
    · have unlisted := mt (catalog.index_iff ability.name position).2 (by simp [absent])
      simpa [last, Ne.symm last] using unlisted
  · by_cases last : position = catalog.abilities.size
    · have beyond := mt (catalog.index_iff name position).1
      simp_all
    · simpa [same, last] using catalog.index_iff name position

/-- The catalog with one more ability behind the others, unless its name is taken. -/
def register (catalog : Catalog) (ability : Ability) : Except CatalogFault Catalog :=
  if fresh : catalog.contains ability.name then .error (.duplicate ability.name)
  else .ok
    { abilities := catalog.abilities.push ability
      index := catalog.index.insert ability.name catalog.abilities.size
      index_iff := index_iff_push fresh }

/-- The catalog of abilities with different names. -/
def ofList (abilities : List Ability) : Except CatalogFault Catalog :=
  abilities.foldlM register empty

/-- Loads a catalog from the text of an array of abilities. -/
def load (text : String) : Except CatalogFault (Logged Catalog) := do
  let abilities ← ((list Ability.read).ofText text).mapError .data
  let catalog ← ofList abilities
  pure do
    .note (.loaded catalog.size)
    pure catalog

/-- The text of a catalog, laid out over lines. -/
def toText (catalog : Catalog) : String :=
  (Json.array (catalog.toList.map Ability.toJson)).pretty

/-- The names and texts of all abilities. -/
def describeAll (catalog : Catalog) (config : Config) : Logged (List (String × String)) :=
  catalog.toList.mapM fun ability => return (ability.name, ← describe config ability)

/-- The names and findings of all abilities. -/
def audit (catalog : Catalog) : Logged (List (String × Finding)) := do
  let findings ← catalog.toList.mapM fun ability =>
    return (← ability.audit).map (ability.name, ·)
  pure findings.flatten

end Catalog

end RulesText
