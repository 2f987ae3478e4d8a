import RulesText.Format.Tagged
import RulesText.Proofs.Walks

/-!
# Which members pass

The members of a record are inspected one after the other, and a tag is picked out from among them
on the way. Whether they pass does not depend on their order: every key stands for a name that the
record knows, every value can be read, and no name occurs twice. What is gathered in the end is the
value behind each name, or the lack of one.
-/

namespace RulesText.Json

theorem Quoted.is_eq_true_iff (key : Quoted) (name : String) :
    key.is name = true ↔ key.value = .ok name := by
  unfold Quoted.is
  cases key.value <;> simp

end RulesText.Json

namespace RulesText.Format
open RulesText.Json

variable {α β : Type}

/-! ## The values behind a name -/

/-- The values behind the keys that stand for a name, in the order of the text. -/
def valuesOf (members : List (Quoted × Doc)) (name : String) : List Doc :=
  (members.filter fun (key, _) => key.is name).map (·.2)

@[simp] theorem valuesOf_nil (name : String) : valuesOf [] name = [] := rfl

theorem valuesOf_cons (key : Quoted) (value : Doc) (members : List (Quoted × Doc))
    (name : String) : valuesOf ((key, value) :: members) name =
      if key.is name then value :: valuesOf members name else valuesOf members name := by
  simp only [valuesOf, List.filter_cons]
  cases key.is name <;> rfl

theorem valuesOf_cons_self {key : Quoted} {name : String} (named : key.value = .ok name)
    (value : Doc) (members : List (Quoted × Doc)) :
    valuesOf ((key, value) :: members) name = value :: valuesOf members name := by
  rw [valuesOf_cons, if_pos ((key.is_eq_true_iff name).2 named)]

theorem valuesOf_cons_other {key : Quoted} {name other : String} (named : key.value = .ok name)
    (different : name ≠ other) (value : Doc) (members : List (Quoted × Doc)) :
    valuesOf ((key, value) :: members) other = valuesOf members other := by
  refine (valuesOf_cons key value members other).trans (if_neg fun same => different ?_)
  rw [Quoted.is_eq_true_iff, named] at same
  exact Except.ok.inj same

theorem mem_valuesOf_iff {members : List (Quoted × Doc)} {name : String} {value : Doc} :
    value ∈ valuesOf members name ↔ ∃ key, (key, value) ∈ members ∧ key.value = .ok name := by
  unfold valuesOf
  simp only [List.mem_map, List.mem_filter, Prod.exists, Quoted.is_eq_true_iff, exists_eq_right]

theorem lookup_eq_head? (members : List (Quoted × Doc)) (name : String) :
    lookup members name = (valuesOf members name).head? := by
  unfold lookup valuesOf
  rw [List.head?_map, List.head?_filter]

/-! ## Inspecting members -/

namespace Record

variable (record : Record α)

theorem allow_eq_ok_iff (seen : List String) (name : String) :
    record.allow seen name = .ok () ↔ (name ∈ record.shape.names ∨ record.lenient = true) ∧
      (name ∈ record.shape.names → name ∉ seen) := by
  unfold allow
  by_cases known : name ∈ record.shape.names
  · by_cases repeated : name ∈ seen <;> simp [known, repeated, mismatch, pure, Except.pure]
  · cases lenient : record.lenient <;> simp [known, mismatch, pure, Except.pure]

theorem inspectEnd_eq_ok_iff (seen : List String) (ending : ObjectEnd) :
    record.inspectEnd seen ending = .ok () ↔ ending = .closed := by
  cases ending with
  | loneKey key fault =>
    simp only [inspectEnd, bind_eq_ok_iff]
    constructor
    · rintro ⟨_, _, _, _, impossible⟩
      cases impossible
    · nofun
  | _ => simp only [inspectEnd, ObjectEnd.check_eq_ok_iff]

/-- Whether members pass the inspection behind others whose names were seen: each has a name that
the record knows or passes over and a value that can be read, and no name of the record occurs a
second time. -/
structure Passes (source : Source) (seen : List String) (members : List (Quoted × Doc)) :
    Prop where
  each : ∀ member ∈ members, ∃ name, member.1.value = .ok name ∧
    (name ∈ record.shape.names ∨ record.lenient = true) ∧
    record.inspectValue source name member.2 = .ok ()
  once : ∀ name ∈ record.shape.names,
    (valuesOf members name).length ≤ if name ∈ seen then 0 else 1

variable {record}

theorem passes_cons {source : Source} {seen : List String} {key : Quoted} {name : String}
    {value : Doc} {members : List (Quoted × Doc)} (named : key.value = .ok name) :
    record.Passes source seen ((key, value) :: members) ↔
      record.allow seen name = .ok () ∧ record.inspectValue source name value = .ok () ∧
        record.Passes source (name :: seen) members := by
  rw [allow_eq_ok_iff]
  constructor
  · rintro ⟨each, once⟩
    obtain ⟨name', named', known, read⟩ := each (key, value) List.mem_cons_self
    obtain rfl : name = name' := Except.ok.inj (named.symm.trans named')
    refine ⟨⟨known, fun own repeated => ?_⟩, read, ?_, fun other own => ?_⟩
    · have count := once name own
      rw [if_pos repeated, valuesOf_cons_self named] at count
      simp at count
    · exact fun member listed => each member (List.mem_cons_of_mem _ listed)
    · have count := once other own
      by_cases same : name = other
      · subst same
        rw [valuesOf_cons_self named, List.length_cons] at count
        rw [if_pos List.mem_cons_self]
        split at count <;> omega
      · rw [valuesOf_cons_other named same] at count
        simpa [Ne.symm same] using count
  · rintro ⟨⟨known, fresh⟩, read, each, once⟩
    refine ⟨fun member listed => ?_, fun other own => ?_⟩
    · rcases List.mem_cons.1 listed with rfl | later
      · exact ⟨name, named, known, read⟩
      · exact each member later
    · have count := once other own
      by_cases same : name = other
      · subst same
        rw [if_pos List.mem_cons_self] at count
        rw [valuesOf_cons_self named, List.length_cons, if_neg (fresh own)]
        omega
      · rw [valuesOf_cons_other named same]
        simpa [Ne.symm same] using count

theorem inspect_eq_ok_iff {source : Source} {seen : List String} {members : List (Quoted × Doc)}
    {ending : ObjectEnd} : record.inspect source seen members ending = .ok () ↔
      ending = .closed ∧ record.Passes source seen members := by
  induction members generalizing seen with
  | nil =>
    rw [inspect, inspectEnd_eq_ok_iff]
    exact ⟨fun closed => ⟨closed, by simp, by simp⟩, fun passed => passed.1⟩
  | cons member members ih =>
    obtain ⟨key, value⟩ := member
    simp only [inspect, bind_eq_ok_iff, ih]
    constructor
    · rintro ⟨name, named, _, allowed, _, read, closed, passed⟩
      exact ⟨closed, (passes_cons named).2 ⟨allowed, read, passed⟩⟩
    · rintro ⟨closed, passed⟩
      obtain ⟨name, named, _⟩ := passed.each (key, value) List.mem_cons_self
      obtain ⟨allowed, read, passed⟩ := (passes_cons named).1 passed
      exact ⟨name, named, (), allowed, (), read, closed, passed⟩

/-- The record of an object: its members pass, and the value is gathered from those behind the
names. -/
theorem ofMembers_eq_ok_iff {source : Source} {members : List (Quoted × Doc)} {ending : ObjectEnd}
    {value : α} : record.ofMembers source members ending = .ok value ↔
      ending = .closed ∧ record.Passes source [] members ∧
        record.shape.gather source (lookup members) = .ok value := by
  simp only [ofMembers, bind_eq_ok_iff]
  constructor
  · rintro ⟨_, inspected, gathered⟩
    obtain ⟨closed, passed⟩ := inspect_eq_ok_iff.1 inspected
    exact ⟨closed, passed, gathered⟩
  · rintro ⟨closed, passed, gathered⟩
    exact ⟨(), inspect_eq_ok_iff.2 ⟨closed, passed⟩, gathered⟩

end Record

/-! ## Picking the tag -/

section

variable {κ : Type} [Vocabulary κ]

theorem find_eq_ok_iff {text : String} {word : κ} :
    (Vocabulary.find text : Except Fault κ) = .ok word ↔ text = Vocabulary.spelling word := by
  unfold Vocabulary.find
  constructor
  · intro found
    split at found
    · rename_i other spelled
      cases found
      exact (Vocabulary.spelling_of_find? spelled).symm
    · cases found
  · rintro rfl
    rw [Vocabulary.find?_spelling]
    rfl

theorem tagWord_eq_ok_iff {doc : Doc} {word : κ} : tagWord doc = .ok word ↔
    ∃ quoted, doc = .string quoted ∧ quoted.value = .ok (Vocabulary.spelling word) := by
  constructor
  · intro read
    unfold tagWord at read
    split at read
    · rename_i quoted
      obtain ⟨text, spelled, found⟩ := bind_eq_ok read
      rw [find_eq_ok_iff.1 found] at spelled
      exact ⟨quoted, rfl, spelled⟩
    · exact absurd read mismatch_ne_ok
  · rintro ⟨quoted, rfl, spelled⟩
    exact bind_eq_ok_iff.2 ⟨_, spelled, find_eq_ok_iff.2 rfl⟩

omit [Vocabulary κ] in
theorem allowTag_eq_ok_iff (tag : Option κ) (name : String) :
    allowTag tag name = .ok () ↔ (name = tagMember → tag = none) := by
  unfold allowTag
  split
  · rename_i repeated
    obtain ⟨same, present⟩ := repeated
    simp [mismatch, same, Option.isSome_iff_ne_none.1 present]
  · rename_i fresh
    simpa [pure, Except.pure] using fresh

/-- Whether a tag can be picked from members, behind others among which it may have been: every key
stands for a name, all that is not the tag can be read, and the tag is there exactly once. -/
structure Tags (tag : Option κ) (members : List (Quoted × Doc)) (word : κ) : Prop where
  each : ∀ member ∈ members, ∃ name, member.1.value = .ok name ∧
    (name ≠ tagMember → member.2.check = .ok ())
  once : match tag with
    | some seen => seen = word ∧ valuesOf members tagMember = []
    | none => ∃ doc, valuesOf members tagMember = [doc] ∧ tagWord doc = .ok word

theorem tags_cons_tag {tag : Option κ} {key : Quoted} {value : Doc} {members : List (Quoted × Doc)}
    {word : κ} (named : key.value = .ok tagMember) : Tags tag ((key, value) :: members) word ↔
      tag = none ∧ ∃ found, tagWord value = .ok found ∧ Tags (some found) members word := by
  have values := valuesOf_cons_self named value members
  constructor
  · rintro ⟨each, once⟩
    have others := fun member listed => each member (List.mem_cons_of_mem (key, value) listed)
    cases tag with
    | some seen =>
      rw [values] at once
      cases once.2
    | none =>
      obtain ⟨doc, single, read⟩ := once
      rw [values] at single
      obtain ⟨rfl, none⟩ := List.cons.inj single
      exact ⟨rfl, word, read, others, rfl, none⟩
  · rintro ⟨rfl, found, read, each, rfl, none⟩
    refine ⟨fun member listed => ?_, value, by rw [values, none], read⟩
    rcases List.mem_cons.1 listed with rfl | later
    · exact ⟨tagMember, named, fun other => absurd rfl other⟩
    · exact each member later

theorem tags_cons_other {tag : Option κ} {key : Quoted} {name : String} {value : Doc}
    {members : List (Quoted × Doc)} {word : κ} (named : key.value = .ok name)
    (other : name ≠ tagMember) : Tags tag ((key, value) :: members) word ↔
      value.check = .ok () ∧ Tags tag members word := by
  have values := valuesOf_cons_other named other value members
  constructor
  · rintro ⟨each, once⟩
    rw [values] at once
    obtain ⟨name', named', checked⟩ := each (key, value) List.mem_cons_self
    obtain rfl : name = name' := Except.ok.inj (named.symm.trans named')
    exact ⟨checked other, fun member listed => each member (List.mem_cons_of_mem _ listed), once⟩
  · rintro ⟨checked, each, once⟩
    refine ⟨fun member listed => ?_, by rwa [values]⟩
    rcases List.mem_cons.1 listed with rfl | later
    · exact ⟨name, named, fun _ => checked⟩
    · exact each member later

theorem tagOfMembers_nil_eq_ok_iff {tag : Option κ} {ending : ObjectEnd} {word : κ} :
    tagOfMembers tag [] ending = .ok word ↔ ending = .closed ∧ tag = some word := by
  cases ending with
  | loneKey key fault =>
    simp only [tagOfMembers, bind_eq_ok_iff]
    constructor
    · rintro ⟨_, _, _, _, impossible⟩
      cases impossible
    · rintro ⟨impossible, _⟩
      cases impossible
  | closed =>
    cases tag <;>
      simp [tagOfMembers, ObjectEnd.check, mismatch, bind, Except.bind, pure, Except.pure]
  | _ => simp [tagOfMembers, ObjectEnd.check, bind, Except.bind]

theorem tagOfMembers_eq_ok_iff {tag : Option κ} {members : List (Quoted × Doc)}
    {ending : ObjectEnd} {word : κ} : tagOfMembers tag members ending = .ok word ↔
      ending = .closed ∧ Tags tag members word := by
  induction members generalizing tag with
  | nil =>
    rw [tagOfMembers_nil_eq_ok_iff]
    refine and_congr_right fun _ => ?_
    cases tag with
    | none => exact ⟨nofun, fun ⟨_, _, impossible, _⟩ => nomatch impossible⟩
    | some seen =>
      constructor
      · rintro ⟨rfl⟩
        exact ⟨by simp, rfl, rfl⟩
      · rintro ⟨_, rfl, _⟩
        rfl
  | cons member members ih =>
    obtain ⟨key, value⟩ := member
    simp only [tagOfMembers, bind_eq_ok_iff]
    constructor
    · rintro ⟨name, named, _, allowed, done⟩
      by_cases same : name = tagMember
      · subst same
        obtain ⟨found, read, done⟩ := bind_eq_ok ((if_pos rfl).symm.trans done)
        obtain ⟨closed, tags⟩ := ih.1 done
        exact ⟨closed, (tags_cons_tag named).2
          ⟨(allowTag_eq_ok_iff tag tagMember).1 allowed rfl, found, read, tags⟩⟩
      · obtain ⟨_, checked, done⟩ := bind_eq_ok ((if_neg same).symm.trans done)
        obtain ⟨closed, tags⟩ := ih.1 done
        exact ⟨closed, (tags_cons_other named same).2 ⟨checked, tags⟩⟩
    · rintro ⟨closed, tags⟩
      obtain ⟨name, named, _⟩ := tags.each (key, value) List.mem_cons_self
      by_cases same : name = tagMember
      · subst same
        obtain ⟨fresh, found, read, tags⟩ := (tags_cons_tag named).1 tags
        refine ⟨tagMember, named, (), (allowTag_eq_ok_iff tag tagMember).2 fun _ => fresh,
          (if_pos rfl).trans ?_⟩
        exact bind_eq_ok_iff.2 ⟨found, read, ih.2 ⟨closed, tags⟩⟩
      · obtain ⟨checked, tags⟩ := (tags_cons_other named same).1 tags
        refine ⟨name, named, (), (allowTag_eq_ok_iff tag name).2 fun tagged => absurd tagged same,
          (if_neg same).trans ?_⟩
        exact bind_eq_ok_iff.2 ⟨(), checked, ih.2 ⟨closed, tags⟩⟩

end

/-! ## Members behind the tag -/

theorem mem_payload_iff {members : List (Quoted × Doc)} {member : Quoted × Doc} :
    member ∈ payload members ↔ member ∈ members ∧ member.1.value ≠ .ok tagMember := by
  unfold payload
  rw [List.mem_filter, Bool.not_eq_true', ← Bool.not_eq_true, Quoted.is_eq_true_iff]

theorem valuesOf_payload {name : String} (other : name ≠ tagMember)
    (members : List (Quoted × Doc)) : valuesOf (payload members) name = valuesOf members name := by
  unfold valuesOf payload
  rw [List.filter_filter]
  congr 1
  refine List.filter_congr fun member _ => ?_
  by_cases named : member.1.is name = true
  · have different : ¬ member.1.is tagMember = true := by
      intro tagged
      have spelled := (member.1.is_eq_true_iff name).1 named
      have spelled' := (member.1.is_eq_true_iff tagMember).1 tagged
      exact other (Except.ok.inj (spelled.symm.trans spelled'))
    simp [named, different]
  · simp [named]

theorem valuesOf_payload_tag (members : List (Quoted × Doc)) :
    valuesOf (payload members) tagMember = [] := by
  refine List.eq_nil_iff_forall_not_mem.2 fun doc listed => ?_
  obtain ⟨key, among, named⟩ := mem_valuesOf_iff.1 listed
  exact (mem_payload_iff.1 among).2 named

end RulesText.Format
