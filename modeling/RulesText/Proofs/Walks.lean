import RulesText.Proofs.Tokens
import RulesText.Proofs.Yields

/-!
# The two walks over a document

A container is read completely, or passed over, if all its parts are and it ends as it should. What
is read completely can be passed over, and passing over does not mind how deep containers are
nested.
-/

namespace RulesText.Json
open Format

/-! ## Ends -/

theorem ListEnd.check_eq_ok_iff (ending : ListEnd) : ending.check = .ok () ↔ ending = .closed := by
  cases ending <;> simp [check]

theorem ListEnd.skim_eq_ok_iff (ending : ListEnd) : ending.skim = .ok () ↔ ending = .closed := by
  cases ending <;> simp [skim, check]

theorem ObjectEnd.check_eq_ok_iff (ending : ObjectEnd) :
    ending.check = .ok () ↔ ending = .closed := by
  cases ending <;> simp [check, bind_eq_ok_iff]

theorem ObjectEnd.skim_eq_ok_iff (ending : ObjectEnd) :
    ending.skim = .ok () ↔ ending = .closed := by
  cases ending <;> simp [skim, check, bind_eq_ok_iff]

theorem QuoteEnd.check_eq_ok_iff (ending : QuoteEnd) :
    ending.check = .ok () ↔ ending = .closed := by
  cases ending <;> simp [check]

/-- Pieces are decoded only up to a closing quote. -/
theorem closed_of_decode {ending : QuoteEnd} {pieces : List Piece} {chars : List Char}
    (decoded : decode ending pieces = .ok chars) : ending = .closed := by
  induction pieces using decode.induct generalizing chars with
  | case1 =>
    obtain ⟨closed, _⟩ := seq_eq_ok_iff.1 decoded
    exact ending.check_eq_ok_iff.1 closed
  | case2 c rest ih =>
    obtain ⟨_, inner, _⟩ := bind_eq_ok decoded
    exact ih inner
  | case3 code rest low =>
    unfold decode at decoded
    rw [if_pos low] at decoded
    cases decoded
  | case4 code low high second rest pair ih =>
    simp only [decode, low, high, pair, if_true] at decoded
    obtain ⟨_, inner, _⟩ := bind_eq_ok decoded
    exact ih inner
  | case5 code low high second rest alone => simp [decode, low, high, alone] at decoded
  | case6 code low high => simp [decode, low, high] at decoded
  | case7 code low high => simp [decode, low, high] at decoded
  | case8 code rest low high ih =>
    rw [decode_unit (by simpa using low) (by simpa using high)] at decoded
    cases inner : decode ending rest with
    | error fault =>
      rw [inner] at decoded
      cases decoded
    | ok more => exact ih inner

/-- A string that stands for a text is written to its closing quote. -/
theorem Quoted.closed_of_value {quoted : Quoted} {text : String}
    (spelled : quoted.value = .ok text) : quoted.ending = .closed := by
  unfold Quoted.value at spelled
  cases decoded : decode quoted.ending quoted.pieces with
  | error fault =>
    rw [decoded] at spelled
    cases spelled
  | ok chars => exact closed_of_decode decoded

namespace Doc

/-! ## Passing over -/

theorem skim_string_iff (quoted : Quoted) :
    skim (.string quoted) = .ok () ↔ quoted.ending = .closed := by
  rw [skim, QuoteEnd.check_eq_ok_iff]

theorem skimItems_iff {items : List Doc} :
    skimItems items = .ok () ↔ ∀ item ∈ items, item.skim = .ok () := by
  induction items with
  | nil => simp [skimItems]
  | cons item items ih => rw [skimItems, seq_eq_ok_iff, ih, List.forall_mem_cons]

theorem skimMembers_iff {members : List (Quoted × Doc)} : skimMembers members = .ok () ↔
    ∀ member ∈ members, member.1.ending = .closed ∧ member.2.skim = .ok () := by
  induction members with
  | nil => simp [skimMembers]
  | cons member members ih =>
    rw [skimMembers, seq_eq_ok_iff, seq_eq_ok_iff, ih, QuoteEnd.check_eq_ok_iff,
      List.forall_mem_cons, and_assoc]

theorem skim_array_iff {items : List Doc} {ending : ListEnd} :
    skim (.array items ending) = .ok () ↔
      (∀ item ∈ items, item.skim = .ok ()) ∧ ending = .closed := by
  rw [skim, seq_eq_ok_iff, skimItems_iff, ListEnd.skim_eq_ok_iff]

theorem skim_object_iff {members : List (Quoted × Doc)} {ending : ObjectEnd} :
    skim (.object members ending) = .ok () ↔
      (∀ member ∈ members, member.1.ending = .closed ∧ member.2.skim = .ok ()) ∧
        ending = .closed := by
  rw [skim, seq_eq_ok_iff, skimMembers_iff, ObjectEnd.skim_eq_ok_iff]

/-! ## Reading completely -/

theorem checkItems_iff {items : List Doc} :
    checkItems items = .ok () ↔ ∀ item ∈ items, item.check = .ok () := by
  induction items with
  | nil => simp [checkItems]
  | cons item items ih => rw [checkItems, seq_eq_ok_iff, ih, List.forall_mem_cons]

theorem checkMembers_iff {members : List (Quoted × Doc)} : checkMembers members = .ok () ↔
    ∀ member ∈ members, (∃ name, member.1.value = .ok name) ∧ member.2.check = .ok () := by
  induction members with
  | nil => simp [checkMembers]
  | cons member members ih =>
    obtain ⟨key, value⟩ := member
    simp only [checkMembers, bind_eq_ok_iff, ih, List.forall_mem_cons]
    constructor
    · rintro ⟨name, named, _, checked, others⟩
      exact ⟨⟨⟨name, named⟩, checked⟩, others⟩
    · rintro ⟨⟨⟨name, named⟩, checked⟩, others⟩
      exact ⟨name, named, (), checked, others⟩

theorem check_array_iff {items : List Doc} {ending : ListEnd} :
    check (.array items ending) = .ok () ↔
      (∀ item ∈ items, item.check = .ok ()) ∧ ending = .closed := by
  rw [check, seq_eq_ok_iff, checkItems_iff, ListEnd.check_eq_ok_iff]

theorem check_object_iff {members : List (Quoted × Doc)} {ending : ObjectEnd} :
    check (.object members ending) = .ok () ↔
      (∀ member ∈ members, (∃ name, member.1.value = .ok name) ∧ member.2.check = .ok ()) ∧
        ending = .closed := by
  rw [check, seq_eq_ok_iff, checkMembers_iff, ObjectEnd.check_eq_ok_iff]

mutual

/-- What is read completely can be passed over. -/
theorem skim_of_check (doc : Doc) (checked : doc.check = .ok ()) : doc.skim = .ok () := by
  match doc with
  | .null | .bool _ | .number _ => rfl
  | .string quoted =>
    obtain ⟨_, spelled, _⟩ := bind_eq_ok checked
    exact (skim_string_iff quoted).2 (Quoted.closed_of_value spelled)
  | .array items ending =>
    obtain ⟨inside, ends⟩ := seq_eq_ok_iff.1 checked
    refine seq_eq_ok_iff.2 ⟨skimItems_of_check items inside, ?_⟩
    exact ending.skim_eq_ok_iff.2 (ending.check_eq_ok_iff.1 ends)
  | .object members ending =>
    obtain ⟨inside, ends⟩ := seq_eq_ok_iff.1 checked
    refine seq_eq_ok_iff.2 ⟨skimMembers_of_check members inside, ?_⟩
    exact ending.skim_eq_ok_iff.2 (ending.check_eq_ok_iff.1 ends)
  | .deep _ => cases checked
  | .broken _ => cases checked

theorem skimItems_of_check (items : List Doc) (checked : checkItems items = .ok ()) :
    skimItems items = .ok () := by
  match items with
  | [] => rfl
  | item :: items =>
    obtain ⟨first, more⟩ := seq_eq_ok_iff.1 checked
    exact seq_eq_ok_iff.2 ⟨skim_of_check item first, skimItems_of_check items more⟩

theorem skimMembers_of_check (members : List (Quoted × Doc))
    (checked : checkMembers members = .ok ()) : skimMembers members = .ok () := by
  match members with
  | [] => rfl
  | (key, value) :: members =>
    obtain ⟨_, named, rest⟩ := bind_eq_ok checked
    obtain ⟨first, more⟩ := seq_eq_ok_iff.1 rest
    have closed := key.ending.check_eq_ok_iff.2 (Quoted.closed_of_value named)
    exact seq_eq_ok_iff.2 ⟨closed, seq_eq_ok_iff.2
      ⟨skim_of_check value first, skimMembers_of_check members more⟩⟩

end

/-! ## Depth -/

mutual

/-- Where a value is passed over it does not matter how deep its containers are nested. -/
theorem skim_limitDepth (room : Nat) (doc : Doc) : (doc.limitDepth room).skim = doc.skim := by
  match doc, room with
  | .array items ending, 0 => rfl
  | .array items ending, room + 1 => rw [limitDepth, skim, skim, skimItems_limitItems room items]
  | .object members ending, 0 => rfl
  | .object members ending, room + 1 =>
    rw [limitDepth, skim, skim, skimMembers_limitMembers room members]
  | .null, _ | .bool _, _ | .number _, _ | .string _, _ | .deep _, _ | .broken _, _ => rfl

theorem skimItems_limitItems (room : Nat) (items : List Doc) :
    skimItems (limitItems room items) = skimItems items := by
  match items with
  | [] => rfl
  | item :: items =>
    rw [limitItems, skimItems, skimItems, skim_limitDepth room item,
      skimItems_limitItems room items]

theorem skimMembers_limitMembers (room : Nat) (members : List (Quoted × Doc)) :
    skimMembers (limitMembers room members) = skimMembers members := by
  match members with
  | [] => rfl
  | (key, value) :: members =>
    rw [limitMembers, skimMembers, skimMembers, skim_limitDepth room value,
      skimMembers_limitMembers room members]

end

end Doc

end RulesText.Json
