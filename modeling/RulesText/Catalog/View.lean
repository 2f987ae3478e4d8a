import RulesText.Catalog

/-!
# Catalogs as lists

A catalog answers as the list of its abilities does: a name is taken exactly when it is listed,
looking a name up is searching the list, names are listed once, and registering adds an ability
behind the others.
-/

namespace RulesText.Catalog

/-- A name is taken exactly when an ability has it. -/
theorem contains_iff {catalog : Catalog} {name : String} :
    catalog.contains name ↔ ∃ ability ∈ catalog.toList, ability.name = name := by
  rw [contains, Std.HashMap.contains_eq_isSome_getElem?, Option.isSome_iff_exists]
  constructor
  · rintro ⟨position, found⟩
    obtain ⟨ability, listed, named⟩ := (catalog.index_iff name position).1 found
    exact ⟨ability, by simpa [toList] using Array.mem_of_getElem? listed, named⟩
  · rintro ⟨ability, listed, named⟩
    obtain ⟨position, found⟩ := List.getElem?_of_mem listed
    exact ⟨position, (catalog.index_iff name position).2
      ⟨ability, by simpa [toList] using found, named⟩⟩

theorem contains_eq_any (catalog : Catalog) (name : String) :
    catalog.contains name = catalog.toList.any (·.name == name) := by
  rw [Bool.eq_iff_iff, contains_iff]
  simp

/-- The ability of a name is the one that a search through the list finds. -/
theorem get?_eq_find? (catalog : Catalog) (name : String) :
    catalog.get? name = catalog.toList.find? (·.name == name) := by
  cases found : catalog.toList.find? (·.name == name) with
  | none =>
    have absent : ¬ catalog.contains name := by
      rw [contains_iff]
      rintro ⟨ability, listed, named⟩
      simpa [named] using List.find?_eq_none.1 found ability listed
    have : catalog.index[name]? = none := by simpa [contains] using absent
    simp [get?, this]
  | some ability =>
    obtain ⟨position, listed⟩ := List.getElem?_of_mem (List.mem_of_find?_eq_some found)
    have named : ability.name = name := by simpa using List.find?_some found
    have there : catalog.abilities[position]? = some ability := by simpa [toList] using listed
    have := (catalog.index_iff name position).2 ⟨ability, there, named⟩
    simp [get?, this, there]

/-- The index holds the positions of all names, and nothing else. -/
theorem index_position (catalog : Catalog) (name : String) (position : Nat) :
    catalog.index[name]? = some position ↔
      ∃ inside : position < catalog.toList.length, catalog.toList[position].name = name := by
  rw [catalog.index_iff]
  constructor
  · rintro ⟨ability, there, named⟩
    obtain ⟨inside, rfl⟩ := Array.getElem?_eq_some_iff.1 there
    exact ⟨by simpa [toList] using inside, by simpa [toList] using named⟩
  · rintro ⟨inside, named⟩
    exact ⟨catalog.toList[position], by simp [toList], named⟩

/-- The ability of a name is the only one listed with it. -/
theorem get?_eq_some_iff (catalog : Catalog) (name : String) (ability : Ability) :
    catalog.get? name = some ability ↔ ability ∈ catalog.toList ∧ ability.name = name := by
  constructor
  · intro found
    rw [get?_eq_find?] at found
    exact ⟨List.mem_of_find?_eq_some found, by simpa using List.find?_some found⟩
  · rintro ⟨listed, named⟩
    obtain ⟨position, inside, rfl⟩ := List.getElem_of_mem listed
    have indexed := (catalog.index_position name position).2 ⟨inside, named⟩
    have there : catalog.abilities[position]? = some catalog.toList[position] := by simp [toList]
    rw [get?, indexed]
    exact there

theorem contains_eq_isSome (catalog : Catalog) (name : String) :
    catalog.contains name = (catalog.get? name).isSome := by
  rw [contains_eq_any, get?_eq_find?, Bool.eq_iff_iff]
  simp

/-- No two abilities have the same name. -/
theorem nodup_names (catalog : Catalog) : (catalog.toList.map Ability.name).Nodup := by
  rw [List.nodup_iff_pairwise_ne, List.pairwise_iff_getElem]
  intro i j hi hj less same
  simp only [List.length_map] at hi hj
  have at_i := (catalog.index_iff _ i).2 ⟨catalog.toList[i], by simp [toList], rfl⟩
  have at_j := (catalog.index_iff _ j).2 ⟨catalog.toList[j], by simp [toList], rfl⟩
  simp only [List.getElem_map] at same
  rw [same, at_j] at at_i
  exact absurd (Option.some.inj at_i) (by omega)

theorem register_taken {catalog : Catalog} {ability : Ability}
    (taken : ability.name ∈ catalog.toList.map Ability.name) :
    catalog.register ability = .error (.duplicate ability.name) := by
  have contained : catalog.contains ability.name := by
    rw [contains_iff]
    simpa using taken
  rw [register, dif_pos contained]

theorem register_fresh {catalog : Catalog} {ability : Ability}
    (fresh : ability.name ∉ catalog.toList.map Ability.name) :
    ∃ next, catalog.register ability = .ok next ∧ next.toList = catalog.toList ++ [ability] := by
  have absent : ¬ catalog.contains ability.name := by
    rw [contains_iff]
    simpa using fresh
  refine ⟨_, dif_neg absent, ?_⟩
  simp [toList]

/-- Registering succeeds exactly for a new name, and then adds the ability behind the others. -/
theorem register_eq_ok {catalog next : Catalog} {ability : Ability}
    (done : catalog.register ability = .ok next) :
    ability.name ∉ catalog.toList.map Ability.name ∧ next.toList = catalog.toList ++ [ability] := by
  unfold register at done
  split at done
  · cases done
  · rename_i fresh
    cases done
    exact ⟨by simpa [contains_iff] using fresh, by simp [toList]⟩

end RulesText.Catalog
