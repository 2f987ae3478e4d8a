import Mathlib.Data.List.Induction
import RulesText.Proofs.CatalogReload

/-!
# Which texts are loaded as catalogs

Loading reads a whole array of abilities before it registers the first, and registers them in
order. So a text is loaded exactly if it is such an array and no name occurs twice in it, a repeated
name comes to light at the first ability that has it again, and data that cannot be read comes
before names that are repeated.
-/

namespace RulesText.Catalog
open Format Json

/-! ## The first repeated name -/

/-- The ability is the first of the abilities whose name occurs before it. -/
def FirstRepeat (abilities : List Ability) (ability : Ability) : Prop :=
  ∃ front back, abilities = front ++ ability :: back ∧ (front.map Ability.name).Nodup ∧
    ability.name ∈ front.map Ability.name

theorem FirstRepeat.not_nodup {abilities : List Ability} {ability : Ability}
    (first : FirstRepeat abilities ability) : ¬ (abilities.map Ability.name).Nodup := by
  obtain ⟨front, back, rfl, _, taken⟩ := first
  intro different
  rw [List.map_append, List.nodup_append] at different
  exact different.2.2 _ taken _ (by simp) rfl

/-- If not all names are different, one of the abilities is the first to repeat a name. -/
theorem exists_firstRepeat {abilities : List Ability}
    (repeated : ¬ (abilities.map Ability.name).Nodup) :
    ∃ ability, FirstRepeat abilities ability := by
  -- From the last ability back: either the ones before it repeat a name already, or it does.
  induction abilities using List.reverseRecOn with
  | nil => exact absurd List.nodup_nil repeated
  | append_singleton abilities last ih =>
    by_cases different : (abilities.map Ability.name).Nodup
    · by_cases taken : last.name ∈ abilities.map Ability.name
      · exact ⟨last, abilities, [], rfl, different, taken⟩
      · exfalso
        apply repeated
        rw [List.map_append, List.nodup_append]
        refine ⟨different, by simp, fun name listed other only => ?_⟩
        obtain rfl : other = last.name := by simpa using only
        rintro rfl
        exact taken listed
    · obtain ⟨ability, front, back, rfl, different, taken⟩ := ih different
      refine ⟨ability, front, back ++ [last], ?_, different, taken⟩
      rw [List.append_assoc, List.cons_append]

/-! ## Registering abilities in order -/

/-- Abilities with different names make a catalog of them. -/
theorem ofList_of_nodup {abilities : List Ability}
    (different : (abilities.map Ability.name).Nodup) :
    ∃ catalog, ofList abilities = .ok catalog ∧ catalog.toList = abilities :=
  foldlM_register_fresh abilities empty different

/-- The first repeated name is the fault of a list. -/
theorem ofList_of_firstRepeat {abilities : List Ability} {ability : Ability}
    (first : FirstRepeat abilities ability) :
    ofList abilities = .error (.duplicate ability.name) := by
  obtain ⟨front, back, rfl, different, taken⟩ := first
  obtain ⟨catalog, filled, listed⟩ := ofList_of_nodup different
  have refused : catalog.register ability = .error (.duplicate ability.name) :=
    register_taken (by rw [listed]; exact taken)
  rw [ofList] at filled ⊢
  rw [List.foldlM_append, filled]
  change (ability :: back).foldlM register catalog = _
  rw [List.foldlM_cons, refused]
  rfl

/-! ## Loading -/

section

variable {text : String} {abilities : List Ability}

theorem load_of_error {fault : Fault} (unread : (list Ability.read).ofText text = .error fault) :
    load text = .error (.data fault) := by
  rw [load, unread]
  rfl

theorem load_of_nodup (read : (list Ability.read).ofText text = .ok abilities)
    (different : (abilities.map Ability.name).Nodup) :
    ∃ catalog, load text = .ok ⟨catalog, [.loaded abilities.length]⟩ ∧
      catalog.toList = abilities := by
  obtain ⟨catalog, filled, listed⟩ := ofList_of_nodup different
  have size : catalog.size = abilities.length := by rw [(answersAs catalog).size, listed]
  refine ⟨catalog, ?_, listed⟩
  rw [load, read, ← size]
  change (ofList abilities >>= _) = _
  rw [filled]
  rfl

theorem load_of_firstRepeat {ability : Ability}
    (read : (list Ability.read).ofText text = .ok abilities)
    (first : FirstRepeat abilities ability) :
    load text = .error (.duplicate ability.name) := by
  rw [load, read]
  change (ofList abilities >>= _) = _
  rw [ofList_of_firstRepeat first]
  rfl

end

/-- A text is loaded exactly if it is an array of abilities with different names. Then the catalog
lists these abilities in their order, and a single note at the level of information counts them. A
repeated name is the fault exactly if the text is an array of abilities and the first ability whose
name occurs before it has that name; a fault of the data is the fault of reading the array. -/
theorem load_loads (text : String) :
    ((∃ loaded, load text = .ok loaded) ↔ ∃ abilities,
      (list Ability.read).ofText text = .ok abilities ∧ (abilities.map Ability.name).Nodup) ∧
    (∀ loaded, load text = .ok loaded →
      (list Ability.read).ofText text = .ok loaded.value.toList ∧
        loaded.notes = [.loaded loaded.value.toList.length] ∧
        loaded.notes.map Note.level = [.info]) ∧
    (∀ name, load text = .error (.duplicate name) ↔ ∃ abilities ability,
      (list Ability.read).ofText text = .ok abilities ∧ FirstRepeat abilities ability ∧
        ability.name = name) ∧
    (∀ fault, load text = .error (.data fault) ↔
      (list Ability.read).ofText text = .error fault) := by
  cases read : (list Ability.read).ofText text with
  | error fault =>
    have failed := load_of_error read
    simp [failed]
  | ok abilities =>
    by_cases different : (abilities.map Ability.name).Nodup
    · obtain ⟨catalog, done, listed⟩ := load_of_nodup read different
      refine ⟨?_, ?_, ?_, ?_⟩
      · exact ⟨fun _ => ⟨abilities, rfl, different⟩, fun _ => ⟨_, done⟩⟩
      · intro loaded same
        rw [done] at same
        cases same
        exact ⟨by rw [listed], by rw [listed], rfl⟩
      · intro name
        rw [done]
        constructor
        · intro same
          cases same
        · rintro ⟨_, ability, same, first, _⟩
          cases same
          exact absurd different first.not_nodup
      · intro fault
        rw [done]
        exact ⟨nofun, nofun⟩
    · obtain ⟨ability, first⟩ := exists_firstRepeat different
      have refused := load_of_firstRepeat read first
      refine ⟨?_, ?_, ?_, ?_⟩
      · rw [refused]
        constructor
        · rintro ⟨_, same⟩
          cases same
        · rintro ⟨_, same, other⟩
          cases same
          exact absurd other different
      · intro loaded same
        rw [refused] at same
        cases same
      · intro name
        rw [refused]
        constructor
        · intro same
          cases same
          exact ⟨abilities, ability, rfl, first, rfl⟩
        · rintro ⟨_, other, same, also, rfl⟩
          cases same
          -- Both are the fault of the one text.
          exact refused.symm.trans (load_of_firstRepeat read also)
      · intro fault
        rw [refused]
        exact ⟨nofun, nofun⟩

/-- Two abilities of different names are loaded. A third with the name of the first is refused, and
behind it an item that is no ability comes to light instead. -/
theorem elm_loads :
    let pair := "[[\"Ash\"],[\"Elm\"]]"
    let thrice := "[[\"Ash\"],[\"Elm\"],[\"Ash\"]]"
    let spoilt := "[[\"Ash\"],[\"Elm\"],[\"Ash\"],7]"
    (∃ loaded, load pair = .ok loaded ∧ loaded.value.toList.map Ability.name = ["Ash", "Elm"] ∧
      loaded.notes = [.loaded 2]) ∧
    load thrice = .error (.duplicate "Ash") ∧
    load spoilt = .error (.data (.mismatch
      (.wrongType (.number (.int 7)) "struct StructuredAbility"))) := by
  intro pair thrice spoilt
  have two : (list Ability.read).ofText pair = .ok [{ name := "Ash" }, { name := "Elm" }] :=
    eq_ok_of_toOption (by decide +kernel)
  have three : (list Ability.read).ofText thrice =
      .ok [{ name := "Ash" }, { name := "Elm" }, { name := "Ash" }] :=
    eq_ok_of_toOption (by decide +kernel)
  refine ⟨?_, ?_, ?_⟩
  · obtain ⟨loaded, done⟩ := (load_loads pair).1.2 ⟨_, two, by decide⟩
    obtain ⟨read, counted, _⟩ := (load_loads pair).2.1 loaded done
    obtain same := Except.ok.inj (two.symm.trans read)
    refine ⟨loaded, done, ?_, ?_⟩
    · rw [← same]
      rfl
    · rw [counted, ← same]
      rfl
  · refine ((load_loads thrice).2.2.1 "Ash").2 ⟨_, { name := "Ash" }, three, ?_, rfl⟩
    exact ⟨[{ name := "Ash" }, { name := "Elm" }], [], rfl, by decide, by decide⟩
  · exact ((load_loads spoilt).2.2.2 _).2 (eq_error_of_fault? (by decide +kernel))

end RulesText.Catalog
