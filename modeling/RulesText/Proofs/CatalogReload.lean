import RulesText.Proofs.CatalogRun
import RulesText.Proofs.Reread

/-!
# Catalogs are saved and loaded again

What is read from a text is settled, so a catalog that was filled from texts holds settled
abilities only, whatever was done to it. Their names differ, and so the text of the catalog is
loaded without a fault, as a catalog of the same abilities.
-/

namespace RulesText.Catalog
open Describe Format Json

/-! ## Filling a catalog -/

theorem foldlM_register_ok {abilities : List Ability} {catalog next : Catalog}
    (done : abilities.foldlM register catalog = .ok next) :
    next.toList = catalog.toList ++ abilities := by
  induction abilities generalizing catalog with
  | nil =>
    cases done
    simp
  | cons ability abilities ih =>
    rw [List.foldlM_cons] at done
    obtain ⟨first, registered, done⟩ := bind_eq_ok done
    rw [ih done, (register_eq_ok registered).2, List.append_assoc]
    rfl

/-- Abilities with different names are registered one after the other. -/
theorem foldlM_register_fresh (abilities : List Ability) (catalog : Catalog)
    (different : ((catalog.toList ++ abilities).map Ability.name).Nodup) :
    ∃ next, abilities.foldlM register catalog = .ok next ∧
      next.toList = catalog.toList ++ abilities := by
  induction abilities generalizing catalog with
  | nil => exact ⟨catalog, rfl, by simp⟩
  | cons ability abilities ih =>
    have fresh : ability.name ∉ catalog.toList.map Ability.name := by
      intro taken
      rw [List.map_append, List.nodup_append] at different
      exact different.2.2 _ taken _ (by simp) rfl
    obtain ⟨first, registered, listed⟩ := register_fresh fresh
    -- The registered abilities and those to come stay the same list, and so do their names.
    have same : first.toList ++ abilities = catalog.toList ++ ability :: abilities := by
      rw [listed, List.append_assoc]
      rfl
    obtain ⟨next, done, whole⟩ := ih first (same ▸ different)
    refine ⟨next, ?_, by rw [whole, same]⟩
    rw [List.foldlM_cons, registered]
    exact done

/-! ## Settled catalogs -/

/-- Whether all abilities are settled. -/
def Settled (catalog : Catalog) : Prop := ∀ ability ∈ catalog.toList, ability.Settled

theorem load_settled {text : String} {loaded : Logged Catalog} (done : load text = .ok loaded) :
    loaded.value.Settled := by
  obtain ⟨abilities, read, done⟩ := bind_eq_ok done
  obtain ⟨catalog, filled, same⟩ := bind_eq_ok done
  cases same
  cases parsed : (list Ability.read).ofText text with
  | error fault =>
    rw [parsed] at read
    cases read
  | ok values =>
    rw [parsed] at read
    cases read
    have settled : ∀ ability ∈ abilities, ability.Settled := yields_ability.list.ofText parsed
    have listed : catalog.toList = abilities := foldlM_register_ok filled
    intro ability member
    exact settled ability (listed ▸ member)

theorem register_settled {catalog next : Catalog} {ability : Ability} (settled : catalog.Settled)
    (good : ability.Settled) (done : catalog.register ability = .ok next) : next.Settled := by
  intro other member
  rw [(register_eq_ok done).2] at member
  rcases List.mem_append.1 member with listed | last
  · exact settled other listed
  · rw [List.mem_singleton.1 last]
    exact good

/-- Whether each ability that is registered was read from a text. -/
def FromTexts (operations : List Operation) : Prop :=
  ∀ ability, .register ability ∈ operations → ∃ text, Ability.read.ofText text = .ok ability

theorem step_settled {catalog : Catalog} {operation : Operation} (settled : catalog.Settled)
    (read : FromTexts [operation]) : (catalog.step operation).Settled := by
  unfold step
  cases attempted : catalog.attempt operation with
  | error fault => exact settled
  | ok next =>
    cases operation with
    | load text => exact load_settled attempted
    | reload => exact load_settled attempted
    | clear =>
      cases attempted
      intro ability member
      cases member
    | register ability =>
      obtain ⟨text, done⟩ := read ability List.mem_cons_self
      rw [attempt] at attempted
      cases registered : catalog.register ability with
      | error fault =>
        rw [registered] at attempted
        cases attempted
      | ok added =>
        rw [registered] at attempted
        cases attempted
        exact register_settled settled (yields_ability.ofText done) registered

/-- A catalog that is filled from texts is settled after any operations. -/
theorem run_settled {operations : List Operation} (read : FromTexts operations) :
    (run operations).Settled := by
  have each : ∀ catalog : Catalog, catalog.Settled → (operations.foldl step catalog).Settled := by
    induction operations with
    | nil => exact fun _ settled => settled
    | cons operation operations ih =>
      intro catalog settled
      have first : FromTexts [operation] := fun ability member =>
        read ability (by rw [List.mem_singleton.1 member]; exact List.mem_cons_self)
      have others : FromTexts operations := fun ability member =>
        read ability (List.mem_cons_of_mem operation member)
      exact ih others _ (step_settled settled first)
  refine each empty fun ability member => ?_
  cases member

/-! ## Loading what was saved -/

/-- The text of a settled catalog is loaded as a catalog of the same abilities. -/
theorem load_toText {catalog : Catalog} (settled : catalog.Settled) :
    ∃ reloaded, load catalog.toText = .ok ⟨reloaded, [.loaded catalog.size]⟩ ∧
      reloaded.toList = catalog.toList := by
  have resolved : catalog.toList.map Ability.resolve = catalog.toList :=
    (list_map_eq_self_iff Ability.resolve_eq_self_iff catalog.toList).2 settled
  have whole := (returns_abilities catalog.toList : Returns Doc.maxDepth _ _ _).ofText.2
  rw [resolved] at whole
  have read : ((list Ability.read).ofText catalog.toText).mapError CatalogFault.data =
      .ok catalog.toList := by
    rw [toText, whole]
    rfl
  obtain ⟨reloaded, filled, listed⟩ :=
    foldlM_register_fresh catalog.toList empty catalog.nodup_names
  refine ⟨reloaded, ?_, listed⟩
  have size : reloaded.size = catalog.size := by
    rw [(answersAs reloaded).size, (answersAs catalog).size, listed]
    rfl
  have done : ofList catalog.toList = .ok reloaded := filled
  rw [load, read, ← size]
  simp only [bind, Except.bind, done]
  rfl

/-- After any operations on abilities that were read from texts, the text of the catalog is loaded
without a fault, as a catalog of the same abilities in the same order. So it finds, describes,
audits and writes them as before. -/
theorem run_reloads (operations : List Operation) (read : FromTexts operations) :
    ∃ reloaded, load (run operations).toText = .ok ⟨reloaded, [.loaded (run operations).size]⟩ ∧
      reloaded.toList = (run operations).toList ∧
      (∀ name, reloaded.get? name = (run operations).get? name) ∧
      (∀ config, reloaded.describeAll config = (run operations).describeAll config) ∧
      reloaded.audit = (run operations).audit ∧
      reloaded.toText = (run operations).toText := by
  obtain ⟨reloaded, loaded, listed⟩ := load_toText (run_settled read)
  refine ⟨reloaded, loaded, listed, fun name => ?_, fun config => ?_, ?_, ?_⟩
  · rw [get?_eq_find?, get?_eq_find?, listed]
  · rw [describeAll, describeAll, listed]
  · rw [audit, audit, listed]
  · rw [toText, toText, listed]

/-- An ability is registered twice behind a text that breaks off, and is there once. -/
theorem ash_reloads :
    let ash : Ability := { name := "Ash", trigger := some (.known .onDeath) }
    let operations := [.load "[", .register ash, .register ash]
    FromTexts operations ∧ ∃ reloaded, load (run operations).toText = .ok ⟨reloaded, [.loaded 1]⟩ ∧
      reloaded.toList = [ash] := by
  intro ash operations
  have read : FromTexts operations := by
    intro ability member
    have same : ability = ash := by simpa [operations] using member
    refine ⟨"[\"Ash\",\"\",\"OnDeath\"]", ?_⟩
    rw [same]
    exact eq_ok_of_toOption (by decide +kernel)
  have listed : (run operations).toList = [ash] := by
    rw [run_toList]
    decide +kernel
  obtain ⟨reloaded, loaded, same, _⟩ := run_reloads operations read
  rw [(answersAs (run operations)).size, listed] at loaded
  exact ⟨read, reloaded, loaded, same.trans listed⟩

end RulesText.Catalog
