import RulesText.Format.Tagged

/-!
# What readers return

A property of everything that a reader returns follows from the readers that it is made of. A
record is made of its members, read or left out, however the text gives them: by name, in any
order, or by position.
-/

namespace RulesText.Format
open RulesText.Json

variable {α β γ : Type} {P : α → Prop} {Q : β → Prop}

/-- Whether all values that a reader returns have a property. -/
def Reader.Yields (read : Reader α) (P : α → Prop) : Prop :=
  ∀ source doc value, read source doc = .ok value → P value

theorem bind_eq_ok {ε : Type} {x : Except ε α} {f : α → Except ε β} {b : β}
    (done : (x >>= f) = .ok b) : ∃ a, x = .ok a ∧ f a = .ok b := by
  cases x with
  | error fault => cases done
  | ok a => exact ⟨a, rfl, done⟩

theorem bind_eq_ok_iff {ε : Type} {x : Except ε α} {f : α → Except ε β} {b : β} :
    (x >>= f) = .ok b ↔ ∃ a, x = .ok a ∧ f a = .ok b := by
  constructor
  · exact bind_eq_ok
  · rintro ⟨a, rfl, done⟩
    exact done

theorem seq_eq_ok_iff {ε : Type} {x : Except ε Unit} {y : Except ε β} {b : β} :
    (x >>= fun _ => y) = .ok b ↔ x = .ok () ∧ y = .ok b := by
  rw [bind_eq_ok_iff]
  exact ⟨fun ⟨_, first, second⟩ => ⟨first, second⟩, fun ⟨first, second⟩ => ⟨(), first, second⟩⟩

theorem discard_eq_ok_iff {ε : Type} {x : Except ε α} :
    (do let _ ← x : Except ε Unit) = .ok () ↔ ∃ a, x = .ok a := by
  cases x with
  | error fault => exact ⟨nofun, nofun⟩
  | ok a => exact ⟨fun _ => ⟨a, rfl⟩, fun _ => rfl⟩

theorem eq_ok_of_toOption {ε : Type} {x : Except ε α} {a : α} (done : x.toOption = some a) :
    x = .ok a := by
  cases x with
  | error fault => cases done
  | ok b =>
    cases done
    rfl

/-- The fault of an answer, if it is one. -/
def fault? : Except Fault α → Option Fault
  | .error fault => some fault
  | .ok _ => none

theorem eq_error_of_fault? {answer : Except Fault α} {fault : Fault}
    (met : fault? answer = some fault) : answer = .error fault := by
  cases answer with
  | error other => rw [Option.some.inj met]
  | ok a => cases met

theorem mismatch_ne_ok {doc : Doc} {expected : String} {a : α} :
    (doc.mismatch expected : Except Fault α) ≠ .ok a := by
  intro done
  obtain ⟨_, _, impossible⟩ := bind_eq_ok done
  cases impossible

/-! ## Readers -/

theorem Reader.Yields.ofText {read : Reader α} (yields : read.Yields P) {text : String} {value : α}
    (done : read.ofText text = .ok value) : P value := by
  unfold Reader.ofText at done
  cases scanned : Doc.scan text with
  | mk doc rest =>
    rw [scanned] at done
    obtain ⟨a, inner, done⟩ := bind_eq_ok done
    split at done
    · cases done
      exact yields .text doc value inner
    · cases done

theorem Reader.Yields.nullable {read : Reader α} (yields : read.Yields P) :
    Reader.Yields (nullable read) fun value => ∀ a ∈ value, P a := by
  intro source doc value done a present
  unfold Format.nullable at done
  split at done
  · cases done
    cases present
  · cases done
  · obtain ⟨b, inner, same⟩ := bind_eq_ok done
    cases same
    cases present
    exact yields source doc a inner

theorem mapM_yields {read : Reader α} (yields : read.Yields P) {source : Source} {docs : List Doc}
    {values : List α} (done : docs.mapM (read source) = .ok values) : ∀ a ∈ values, P a := by
  induction docs generalizing values with
  | nil =>
    cases done
    simp
  | cons doc docs ih =>
    rw [List.mapM_cons] at done
    obtain ⟨first, inner, done⟩ := bind_eq_ok done
    obtain ⟨others, rest, same⟩ := bind_eq_ok done
    cases same
    intro a listed
    rcases List.mem_cons.1 listed with rfl | later
    · exact yields source doc a inner
    · exact ih rest a later

theorem Reader.Yields.list {read : Reader α} (yields : read.Yields P) :
    Reader.Yields (list read) fun values => ∀ a ∈ values, P a := by
  intro source doc values done
  unfold Format.list at done
  split at done
  · obtain ⟨others, items, done⟩ := bind_eq_ok done
    obtain ⟨_, _, same⟩ := bind_eq_ok done
    cases same
    exact mapM_yields yields items
  · cases done
  · exact absurd done mismatch_ne_ok

theorem yields_alternatives {type : String} {read? : Doc → Option α}
    (each : ∀ doc a, read? doc = some a → P a) : Reader.Yields (alternatives type read?) P := by
  intro source doc value done
  obtain ⟨_, _, done⟩ := bind_eq_ok done
  split at done
  · rename_i a read
    cases done
    exact each doc value read
  · cases done

/-! ## Records -/

/-- A value that a shape may build: each of its members was read by the reader of the member, or
is the value that the member has when it is left out. -/
inductive Built : {α : Type} → Shape α → α → Prop
  | value {α : Type} (a : α) : Built (.value a) a
  | read {α β : Type} {field : Field α} {rest : Shape (α → β)} {source : Source} {doc : Doc}
    {a : α} {build : α → β} (done : field.read source doc = .ok a) (more : Built rest build) :
    Built (.member field rest) (build a)
  | absent {α β : Type} {field : Field α} {rest : Shape (α → β)} {a : α} {build : α → β}
    (absent : field.absent = some a) (more : Built rest build) :
    Built (.member field rest) (build a)

theorem Shape.built_of_gather {shape : Shape α} {source : Source} {find : String → Option Doc}
    {value : α} (done : shape.gather source find = .ok value) : Built shape value := by
  induction shape with
  | value a =>
    cases done
    exact .value a
  | member field rest ih =>
    obtain ⟨a, taken, done⟩ := bind_eq_ok done
    obtain ⟨build, gathered, same⟩ := bind_eq_ok done
    cases same
    unfold Field.take at taken
    split at taken
    · exact .read taken (ih gathered)
    · split at taken
      · rename_i given
        cases taken
        exact .absent given (ih gathered)
      · cases taken

theorem Shape.built_of_deal {shape : Shape α} {source : Source} {expected : String}
    {ending : ListEnd} {index : Nat} {items left : List Doc} {value : α}
    (done : shape.deal source expected ending index items = .ok (value, left)) :
    Built shape value := by
  induction shape generalizing index items left with
  | value a =>
    unfold deal at done
    cases done
    exact .value a
  | member field rest ih =>
    cases items with
    | cons item items =>
      obtain ⟨a, taken, done⟩ := bind_eq_ok done
      obtain ⟨⟨build, others⟩, dealt, same⟩ := bind_eq_ok done
      cases same
      exact .read taken (ih dealt)
    | nil =>
      -- Behind the last item only members remain that may be left out.
      obtain ⟨_, _, done⟩ := bind_eq_ok done
      split at done
      · rename_i a given
        obtain ⟨_, taken, done⟩ := bind_eq_ok done
        cases taken
        obtain ⟨⟨build, others⟩, dealt, same⟩ := bind_eq_ok done
        cases same
        exact .absent given (ih dealt)
      · cases done

/-- Whether all values that a shape may build have a property. -/
def Shape.Yields (shape : Shape α) (P : α → Prop) : Prop := ∀ value, Built shape value → P value

theorem Built.of_map {shape : Shape α} {build : α → β} {b : β} (built : Built (shape.map build) b) :
    ∃ a, Built shape a ∧ build a = b := by
  induction shape generalizing β with
  | value a =>
    cases built
    exact ⟨a, .value a, rfl⟩
  | member field rest ih =>
    cases built with
    | read done more =>
      obtain ⟨f, inner, rfl⟩ := ih more
      exact ⟨_, .read done inner, rfl⟩
    | absent given more =>
      obtain ⟨f, inner, rfl⟩ := ih more
      exact ⟨_, .absent given inner, rfl⟩

theorem Built.of_append {shape : Shape α} {next : Shape β} {build : α → β → γ} {c : γ}
    (built : Built (shape.append build next) c) :
    ∃ a b, Built shape a ∧ Built next b ∧ build a b = c := by
  induction shape generalizing γ with
  | value a =>
    obtain ⟨b, inner, same⟩ := built.of_map
    exact ⟨a, b, .value a, inner, same⟩
  | member field rest ih =>
    cases built with
    | read done more =>
      obtain ⟨f, b, inner, others, rfl⟩ := ih more
      exact ⟨_, b, .read done inner, others, rfl⟩
    | absent given more =>
      obtain ⟨f, b, inner, others, rfl⟩ := ih more
      exact ⟨_, b, .absent given inner, others, rfl⟩

namespace Shape.Yields

/-! ## Shapes -/

theorem value {a : α} (holds : P a) : (Shape.value a).Yields P := by
  intro b built
  cases built
  exact holds

theorem map {shape : Shape α} {build : α → β} (yields : shape.Yields fun a => Q (build a)) :
    (build <$> shape).Yields Q := by
  intro b built
  obtain ⟨a, inner, rfl⟩ := Built.of_map built
  exact yields a inner

theorem seq {shape : Shape (α → β)} {next : Shape α}
    (yields : shape.Yields fun build => ∀ a, P a → Q (build a)) (yields' : next.Yields P) :
    (shape <*> next).Yields Q := by
  intro b built
  obtain ⟨build, a, inner, others, rfl⟩ := Built.of_append built
  exact yields build inner a (yields' a others)

theorem mono {shape : Shape α} {P' : α → Prop} (yields : shape.Yields P)
    (weaker : ∀ a, P a → P' a) : shape.Yields P' :=
  fun value built => weaker value (yields value built)

theorem any (shape : Shape α) : shape.Yields fun _ => True := fun _ _ => trivial

theorem field {field : Field α} (yields : field.read.Yields P)
    (absent : ∀ a, field.absent = some a → P a) : (Shape.member field (.value id)).Yields P := by
  intro a built
  cases built with
  | read done more =>
    cases more
    exact yields _ _ _ done
  | absent given more =>
    cases more
    exact absent _ given

theorem required {read : Reader α} (name : String) (yields : read.Yields P) :
    (Shape.required name read).Yields P :=
  field yields nofun

theorem optional {read : Reader α} (name : String) (yields : read.Yields P) :
    (Shape.optional name read).Yields fun value => ∀ a ∈ value, P a := by
  refine field yields.nullable fun value given a present => ?_
  cases given
  cases present

theorem defaulted {read : Reader α} {absent : α} (name : String) (yields : read.Yields P)
    (holds : P absent) : (Shape.defaulted name read absent).Yields P := by
  refine field yields fun a given => ?_
  cases given
  exact holds

end Shape.Yields

/-! ## Whole records -/

theorem Record.yields_members {record : Record α} (yields : record.shape.Yields P)
    {source : Source} {members : List (Quoted × Doc)} {ending : ObjectEnd} {value : α}
    (done : record.ofMembers source members ending = .ok value) : P value := by
  obtain ⟨_, _, gathered⟩ := bind_eq_ok done
  exact yields value (Shape.built_of_gather gathered)

theorem Record.yields_items {record : Record α} (yields : record.shape.Yields P) {source : Source}
    {items : List Doc} {ending : ListEnd} {value : α}
    (done : record.ofItems source items ending = .ok value) : P value := by
  obtain ⟨⟨built, left⟩, dealt, done⟩ := bind_eq_ok done
  obtain ⟨_, _, same⟩ := bind_eq_ok done
  cases same
  exact yields value (Shape.built_of_deal dealt)

/-- Whatever may be built of the members of a record is what the record is read as. -/
theorem Record.yields {record : Record α} (yields : record.shape.Yields P) :
    record.read.Yields P := by
  intro source doc value done
  unfold Record.read at done
  split at done
  · exact Record.yields_members yields done
  · exact Record.yields_items yields done
  · cases done
  · exact absurd done mismatch_ne_ok

theorem yields_tagged {κ : Type} [Vocabulary κ] {record : κ → Record α} (title : String)
    (yields : ∀ w, (record w).shape.Yields P) : Reader.Yields (tagged title record) P := by
  intro source doc value done
  unfold tagged at done
  split at done
  · obtain ⟨w, _, done⟩ := bind_eq_ok done
    exact Record.yields_members (yields w) done
  · obtain ⟨_, _, impossible⟩ := bind_eq_ok done
    cases impossible
  · obtain ⟨w, _, done⟩ := bind_eq_ok done
    obtain ⟨_, _, done⟩ := bind_eq_ok done
    obtain ⟨_, _, done⟩ := bind_eq_ok done
    exact Record.yields_items (yields w) done
  · cases done
  · exact absurd done mismatch_ne_ok

end RulesText.Format
