import RulesText.Proofs.OneMember

/-!
# Effects that must last

Whether an effect has to say how long it lasts is told by its kind. The shape by which the kind is
read agrees: without its duration, an effect is read as the same effect without one, or its duration
is missed, and nothing else becomes of it. So no effect that must last is ever without a duration.
-/

namespace RulesText
open Format Json

namespace Effect

/-- An effect that must last says for how long. -/
theorem exists_duration (effect : Effect) (required : effect.kind.requiresDuration = true) :
    ∃ duration, effect.duration = some duration := by
  obtain ⟨target, deed, condition⟩ := effect
  cases deed with
  | standing change duration => exact ⟨duration, rfl⟩
  | act what duration => cases what <;> cases required

/-! ## Members besides the duration -/

/-- The members of an act in front of its duration, and what is built of them: only the duration
and the condition are left open. -/
theorem actShape_split (act : Shape Act) :
    ∃ lead : Shape (Option Duration → Option Condition → Effect),
    actShape act = lead <*> .optional "duration" Duration.read
      <*> .optional "condition" Condition.read ∧
    lead.Yields fun build => ∃ target what, build = fun duration condition =>
      ⟨target, .act what duration, condition⟩ := by
  refine ⟨_, rfl, .seq (.map ?_) (.any _)⟩
  exact (Shape.Yields.any _).mono fun target _ what _ => ⟨target, what, rfl⟩

/-- An act whose duration is taken away is the same act without one. -/
theorem gather_act {act : Shape Act} (distinct : (actShape act).names.Nodup) {source : Source}
    {find find' : String → Option Doc} (absent : find' "duration" = none)
    (agree : ∀ name, name ≠ "duration" → find' name = find name) {effect : Effect}
    (gathered : (actShape act).gather source find = .ok effect) :
    ∃ bare, (actShape act).gather source find' = .ok bare ∧ bare.duration = none ∧
      ∀ duration, bare.lasting duration = effect.lasting duration := by
  obtain ⟨lead, same, yields⟩ := actShape_split act
  -- No member in front has this name, so what is built of them stays the same without it.
  have fresh : "duration" ∉ lead.names := by
    have names : (actShape act).names = (lead.names ++ ["duration"]) ++ ["condition"] := by
      rw [same]
      exact (Shape.names_append _ _ _).trans
        (congrArg (· ++ ["condition"]) (Shape.names_append _ _ _))
    rw [names, List.append_assoc] at distinct
    exact fun own => (List.nodup_append.1 distinct).2.2 _ own _ List.mem_cons_self rfl
  rw [same, Shape.gather_optional_eq_ok_iff] at gathered
  obtain ⟨_, gathered, condition, gated, rfl⟩ := gathered
  obtain ⟨build, led, duration, _, rfl⟩ := Shape.gather_optional_eq_ok_iff.1 gathered
  obtain ⟨target, what, rfl⟩ := yields build (Shape.built_of_gather led)
  have again : lead.gather source find' =
      .ok fun duration condition => ⟨target, .act what duration, condition⟩ := by
    rw [← led]
    exact Shape.gather_congr fun name own => agree name fun first => fresh (first ▸ own)
  refine ⟨⟨target, .act what none, condition⟩, ?_, rfl, fun _ => rfl⟩
  rw [same, Shape.gather_optional_eq_ok_iff]
  refine ⟨_, Shape.gather_optional_eq_ok_iff.2 ⟨_, again, none, ?_, rfl⟩, condition, ?_, rfl⟩
  · rw [absent]
    rfl
  · rw [agree "condition" (by decide)]
    exact gated

/-- The duration of a standing change is missed when it is taken away. -/
theorem gather_standing {change : Shape Standing} (distinct : (standingShape change).names.Nodup)
    {source : Source} {find find' : String → Option Doc} (absent : find' "duration" = none)
    (agree : ∀ name, name ≠ "duration" → find' name = find name) {effect : Effect}
    (gathered : (standingShape change).gather source find = .ok effect) :
    (standingShape change).gather source find' =
      .error (.mismatch (.missingMember "duration")) := by
  have has : (standingShape change).Has ⟨"duration", Duration.read, none⟩ :=
    .seq_left (.seq_right (.here _) _) _
  obtain ⟨build, depends⟩ := has.gather distinct gathered
  rw [depends find' agree, absent]
  rfl

/-- What becomes of an effect whose duration is taken away is told by its kind. -/
theorem gather_undated {kind : EffectKind} {source : Source} {find find' : String → Option Doc}
    (absent : find' "duration" = none)
    (agree : ∀ name, name ≠ "duration" → find' name = find name) {effect : Effect}
    (gathered : (shape kind).gather source find = .ok effect) :
    kind.requiresDuration = true ∧ (shape kind).gather source find' =
        .error (.mismatch (.missingMember "duration")) ∨
      kind.requiresDuration = false ∧ ∃ bare, (shape kind).gather source find' = .ok bare ∧
        bare.duration = none ∧ ∀ duration, bare.lasting duration = effect.lasting duration := by
  have distinct := (List.nodup_cons.1 (Effect.nodup_names kind)).2
  cases kind with
  | modifyStats | immunity | damageReduction =>
    exact .inl ⟨rfl, gather_standing distinct absent agree gathered⟩
  | _ => exact .inr ⟨rfl, gather_act distinct absent agree gathered⟩

theorem duration_mem_names (kind : EffectKind) : "duration" ∈ (Effect.record kind).shape.names := by
  cases kind <;> decide

theorem read_undated {before after : List (Quoted × Doc)} {key : Quoted} {doc : Doc}
    (named : key.value = .ok "duration") {source : Source} {effect : Effect}
    (reads : Effect.read source (.object (before ++ (key, doc) :: after) .closed) = .ok effect) :
    effect.kind.requiresDuration = true ∧
        Effect.read source (.object (before ++ after) .closed) =
          .error (.mismatch (.missingMember "duration")) ∨
      effect.kind.requiresDuration = false ∧ ∃ bare,
        Effect.read source (.object (before ++ after) .closed) = .ok bare ∧
          bare.duration = none ∧ ∀ duration, bare.lasting duration = effect.lasting duration := by
  obtain ⟨kind, find, find', gathered, absent, agree, without⟩ :=
    tagged_without named (by decide) duration_mem_names reads
  have same : effect.kind = kind := yields_kind kind _ (Shape.built_of_gather gathered)
  rw [Effect.read, without, same]
  exact gather_undated absent agree gathered

end Effect

/-- An object that is read as an effect and has a duration is read without that member exactly if
its kind does not require one, and then it is the same effect without a duration: the two are made
equal by any one duration. Otherwise the fault is that the duration is missing. Whatever effects are
read, built or adapted, those of a kind that requires a duration have one. -/
theorem duration_dropped_or_missing :
    (∀ (before after : List (Quoted × Doc)) (key : Quoted) (doc : Doc) (text : String)
      (effect : Effect), key.value = .ok "duration" →
      Doc.IsText (.object (before ++ (key, doc) :: after) .closed) text →
      Effect.read.ofText text = .ok effect →
      (∃ text', Doc.IsText (.object (before ++ after) .closed) text') ∧
      ∀ text', Doc.IsText (.object (before ++ after) .closed) text' →
        ((∃ bare, Effect.read.ofText text' = .ok bare) ↔ effect.kind.requiresDuration = false) ∧
        (∀ bare, Effect.read.ofText text' = .ok bare → bare.duration = none ∧
          ∀ duration, bare.lasting duration = effect.lasting duration) ∧
        ∀ fault, Effect.read.ofText text' = .error fault →
          fault = .mismatch (.missingMember "duration")) ∧
    ∀ effect : Effect, effect.kind.requiresDuration = true →
      ∃ duration, effect.duration = some duration := by
  refine ⟨fun before after key doc text effect named spelled reads => ⟨?_, ?_⟩,
    Effect.exists_duration⟩
  · have each := Doc.exists_isText_object_iff.1 ⟨text, spelled⟩
    exact Doc.exists_isText_object_iff.2 fun member listed => each member (by
      rcases List.mem_append.1 listed with front | back <;> simp [*])
  · intro text' spelled'
    rw [spelled.ofText_object, List.map_append, List.map_cons] at reads
    rw [spelled'.ofText_object, List.map_append]
    rcases Effect.read_undated named reads with ⟨required, missing⟩ | ⟨free, bare, done, undated⟩
    · simp only [missing, required, reduceCtorEq, exists_false, false_implies, implies_true,
        Except.error.injEq, true_and]
      exact fun fault same => same.symm
    · simp only [done, free, reduceCtorEq, Except.ok.injEq, exists_eq', false_implies,
        implies_true, and_true, true_and]
      rintro _ rfl
      exact undated

/-- Destruction does without its duration, and a change that stands for a while misses it. -/
theorem durations_taken_away :
    let destruction := "\x7b\"type\":\"destroy\",\"duration\":\"this-turn\",\"target\":\"self\"\x7d"
    let undated := "\x7b\"type\":\"destroy\",\"target\":\"self\"\x7d"
    let shield := "\x7b\"target\":\"self\",\"type\":\"immunity\",\"immuneTo\":[]," ++
      "\"duration\":\"permanent\"\x7d"
    let timeless := "\x7b\"target\":\"self\",\"type\":\"immunity\",\"immuneTo\":[]\x7d"
    (∃ effect, Effect.read.ofText destruction = .ok effect ∧ effect.duration = some .thisTurn) ∧
      (∃ effect, Effect.read.ofText undated = .ok effect ∧ effect.duration = none) ∧
      (∃ effect, Effect.read.ofText shield = .ok effect ∧ effect.duration = some .permanent) ∧
      ¬ ∃ effect, Effect.read.ofText timeless = .ok effect := by
  intro destruction undated shield timeless
  have destroys : Effect.read.ofText destruction =
      .ok ((Effect.destroy (.known .itself)).lasting .thisTurn) :=
    eq_ok_of_toOption (by decide +kernel)
  have shields : Effect.read.ofText shield = .ok (.immunity (.known .itself) [] .permanent) :=
    eq_ok_of_toOption (by decide +kernel)
  have fits : Fits 1 (.object [("type", .string "destroy"), ("duration", .string "this-turn"),
      ("target", .string "self")]) := .object (by simp [Fits.string])
  have fits_undated : Fits 1 (.object [("type", .string "destroy"), ("target", .string "self")]) :=
    .object (by simp [Fits.string])
  have fits_shield : Fits 2 (.object [("target", .string "self"), ("type", .string "immunity"),
      ("immuneTo", .array []), ("duration", .string "permanent")]) :=
    .object (by simp [Fits.string, Fits.array])
  have fits_timeless : Fits 2 (.object [("target", .string "self"), ("type", .string "immunity"),
      ("immuneTo", .array [])]) := .object (by simp [Fits.string, Fits.array])
  have spared := (duration_dropped_or_missing.1 [(.ofText "type", .string (.ofText "destroy"))]
    [(.ofText "target", .string (.ofText "self"))] (.ofText "duration") _ _ _
    (Quoted.value_ofText _) fits.isText_compact destroys).2 _ fits_undated.isText_compact
  have missed := (duration_dropped_or_missing.1 [(.ofText "target", .string (.ofText "self")),
    (.ofText "type", .string (.ofText "immunity")), (.ofText "immuneTo", .array [] .closed)]
    [] (.ofText "duration") _ _ _
    (Quoted.value_ofText _) fits_shield.isText_compact shields).2 _ fits_timeless.isText_compact
  obtain ⟨effect, reads⟩ := spared.1.2 rfl
  refine ⟨⟨_, destroys, rfl⟩, ⟨effect, reads, (spared.2.1 effect reads).1⟩, ⟨_, shields, rfl⟩, ?_⟩
  exact fun reads => Bool.noConfusion (missed.1.1 reads)

end RulesText
