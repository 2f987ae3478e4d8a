import RulesText.Format.Tagged
import RulesText.Proofs.CutTexts

/-!
# Readers of a text that goes on

A reader of a document that the end of a text cuts off is at fault. If its fault is not that the
text has ended, then it has met that fault before the end, and it meets the same when the text goes
on. This is carried from the walks over a document to the readers of its parts, and from the members
of a record to the record. Two kinds of documents make an exception: a numeral that is passed over
is a bad one already when it is cut off, and behind the last member of a record by position a comma
is too much whatever follows, but is called so only when the list ends there.
-/

namespace RulesText.Json

variable {α β : Type} {signed bracketed sign bracket : Prop}

/-! ## Faults that stay -/

/-- What is answered for a document that is cut off, and for what becomes of it: a fault that stays,
unless it is that the text has ended. A bad numeral need not stay where a sign may follow, and
another text behind a comma is a comma too many where a bracket follows. -/
inductive Stays (signed bracketed : Prop) : Except Fault α → Except Fault α → Prop
  | unfinished (inside : Unfinished) (answer' : Except Fault α) :
    Stays signed bracketed (.error (.unfinished inside)) answer'
  | same (fault : Fault) : Stays signed bracketed (.error fault) (.error fault)
  | numeral (sign : signed) (answer' : Except Fault α) :
    Stays signed bracketed (.error (.malformed .badNumeral)) answer'
  | comma (bracket : bracketed) :
    Stays signed bracketed (.error (.malformed .trailingText)) (.error (.malformed .trailingComma))

namespace Stays

/-- Whatever would come behind a fault is not looked at. -/
theorem bind {answer answer' : Except Fault α} (stays : Stays signed bracketed answer answer')
    (next next' : α → Except Fault β) :
    Stays signed bracketed (answer >>= next) (answer' >>= next') := by
  cases stays with
  | unfinished inside => exact .unfinished inside _
  | same fault => exact .same fault
  | numeral sign => exact .numeral sign _
  | comma bracket => exact .comma bracket

/-- In front of what is cut off, the same is read. -/
theorem behind (answer : Except Fault α) {next next' : α → Except Fault β}
    (stays : ∀ a, Stays signed bracketed (next a) (next' a)) :
    Stays signed bracketed (answer >>= next) (answer >>= next') := by
  cases answer with
  | error fault => exact .same fault
  | ok a => exact stays a

end Stays

/-! ## Strings -/

theorem decode_low {code : Nat} (low : isLow code = true) (ending : QuoteEnd) (rest : List Piece) :
    decode ending (.unit code :: rest) = .error (.malformed .loneSurrogate) := by
  unfold decode
  rw [if_pos low]

/-- The characters of a string that is cut off, and of one that goes on behind its pieces. -/
theorem decode_cut (ending' : QuoteEnd) (pieces others : List Piece) :
    Stays sign bracket (decode .unfinished pieces) (decode ending' (pieces ++ others)) := by
  induction pieces using decode.induct with
  | case1 => exact .unfinished _ _
  | case2 c rest ih => exact ih.bind _ _
  | case3 code rest low =>
    rw [List.cons_append, decode_low low, decode_low low]
    exact .same _
  | case4 code low high second rest pair ih =>
    simp only [List.cons_append, decode, low, high, pair, if_true]
    exact ih.bind _ _
  | case5 code low high second rest alone =>
    simp only [List.cons_append, decode, low, high, alone, if_true]
    exact .same _
  | case6 code low high c rest =>
    simp only [List.cons_append, decode, low, high, if_true]
    exact .same _
  | case7 code low high =>
    simp only [decode, low, high, if_true]
    exact .unfinished _ _
  | case8 code rest low high ih =>
    have plain := decode_unit (by simpa using low) (by simpa using high)
    rw [List.cons_append, plain, plain]
    exact ih.bind _ _

theorem Quoted.Cut.value {quoted quoted' : Quoted} (inside : quoted.Cut quoted') :
    Stays sign bracket quoted.value quoted'.value := by
  obtain ⟨others, split⟩ := inside.pieces
  unfold Quoted.value
  rw [inside.unfinished, ← split]
  exact (decode_cut quoted'.ending quoted.pieces others).bind _ _

/-- A key that may itself be cut off, and what is read behind it. -/
theorem Stays.key {key key' : Quoted} (same : key' = key ∨ key.Cut key')
    {next next' : String → Except Fault α} (stays : ∀ name, Stays sign bracket (next name)
      (next' name)) : Stays sign bracket (key.value >>= next) (key'.value >>= next') := by
  rcases same with rfl | inside
  · exact .behind _ stays
  · exact inside.value.bind _ _

/-! ## Walks -/

namespace Doc

theorem checkItems_cons (item : Doc) (items : List Doc) (ending : ListEnd) :
    (do checkItems (item :: items); ending.check) =
      (do item.check; checkItems items; ending.check) := by
  simp only [checkItems, bind_assoc]

theorem checkMembers_cons (member : Quoted × Doc) (members : List (Quoted × Doc))
    (ending : ObjectEnd) : (do checkMembers (member :: members); ending.check) =
      (do let _ ← member.1.value; member.2.check; checkMembers members; ending.check) := by
  simp only [checkMembers, bind_assoc]

theorem skimItems_cons (item : Doc) (items : List Doc) (ending : ListEnd) :
    (do skimItems (item :: items); ending.skim) =
      (do item.skim; skimItems items; ending.skim) := by
  simp only [skimItems, bind_assoc]

theorem skimMembers_cons (member : Quoted × Doc) (members : List (Quoted × Doc))
    (ending : ObjectEnd) : (do skimMembers (member :: members); ending.skim) =
      (do member.1.ending.check; member.2.skim; skimMembers members; ending.skim) := by
  simp only [skimMembers, bind_assoc]

end Doc

mutual

/-- A document that is cut off is checked up to the fault that it keeps. -/
theorem Doc.Cut.check {doc doc' : Doc} (cut : Doc.Cut signed bracketed doc doc') :
    Stays sign bracket doc.check doc'.check := by
  cases cut with
  | absent | word | null | bool | numeral | number => exact .unfinished _ _
  | string inside => exact inside.value.bind _ _
  | array inside => exact inside.check
  | object inside => exact inside.check
  | deepArray | deepObject => exact .same _

theorem ItemsCut.check {items items' : List Doc} {ending ending' : ListEnd}
    (cut : ItemsCut signed bracketed items ending items' ending') :
    Stays sign bracket (do Doc.checkItems items; ending.check)
      (do Doc.checkItems items'; ending'.check) := by
  cases cut with
  | behind items' => exact .unfinished _ _
  | comma _ => exact .unfinished _ _
  | item item others =>
    rw [Doc.checkItems_cons, Doc.checkItems_cons]
    exact .behind _ fun _ => others.check
  | last inside items' =>
    rw [Doc.checkItems_cons, Doc.checkItems_cons]
    exact inside.check.bind _ _

theorem MembersCut.check {members members' : List (Quoted × Doc)} {ending ending' : ObjectEnd}
    (cut : MembersCut signed bracketed members ending members' ending') :
    Stays sign bracket (do Doc.checkMembers members; ending.check)
      (do Doc.checkMembers members'; ending'.check) := by
  cases cut with
  | behind members' => exact .unfinished _ _
  | comma goes => exact .unfinished _ _
  | key same fault' => exact .key same fun _ => .unfinished _ _
  | value same value' members' =>
    rw [Doc.checkMembers_cons]
    exact .key same fun _ => .unfinished _ _
  | member member others =>
    rw [Doc.checkMembers_cons, Doc.checkMembers_cons]
    exact .behind _ fun _ => .behind _ fun _ => others.check
  | last key inside members' =>
    rw [Doc.checkMembers_cons, Doc.checkMembers_cons]
    exact .behind _ fun _ => inside.check.bind _ _

end

/-- Where a key is passed over, only its end matters. -/
theorem Stays.keyEnd {key key' : Quoted} (same : key' = key ∨ key.Cut key')
    {next next' : Unit → Except Fault α} (stays : Stays sign bracket (next ()) (next' ())) :
    Stays sign bracket (key.ending.check >>= next) (key'.ending.check >>= next') := by
  rcases same with rfl | inside
  · exact .behind _ fun _ => stays
  · rw [inside.unfinished]
    exact .unfinished _ _

mutual

/-- A document that is cut off is passed over up to the fault that it keeps. Here a numeral that is
cut off is not one that has not ended, but a bad one. -/
theorem Doc.Cut.skim {doc doc' : Doc} (cut : Doc.Cut signed bracketed doc doc') :
    Stays signed bracket doc.skim doc'.skim := by
  cases cut with
  | absent | word | null | bool => exact .unfinished _ _
  | numeral => exact .same _
  | number sign numeral => exact .numeral sign _
  | string inside =>
    rw [Doc.skim, inside.unfinished]
    exact .unfinished _ _
  | array inside => exact inside.skim
  | object inside => exact inside.skim
  | deepArray inside => exact inside.skim
  | deepObject inside => exact inside.skim

theorem ItemsCut.skim {items items' : List Doc} {ending ending' : ListEnd}
    (cut : ItemsCut signed bracketed items ending items' ending') :
    Stays signed bracket (do Doc.skimItems items; ending.skim)
      (do Doc.skimItems items'; ending'.skim) := by
  cases cut with
  | behind items' => exact .unfinished _ _
  | comma _ => exact .unfinished _ _
  | item item others =>
    rw [Doc.skimItems_cons, Doc.skimItems_cons]
    exact .behind _ fun _ => others.skim
  | last inside items' =>
    rw [Doc.skimItems_cons, Doc.skimItems_cons]
    exact inside.skim.bind _ _

theorem MembersCut.skim {members members' : List (Quoted × Doc)} {ending ending' : ObjectEnd}
    (cut : MembersCut signed bracketed members ending members' ending') :
    Stays signed bracket (do Doc.skimMembers members; ending.skim)
      (do Doc.skimMembers members'; ending'.skim) := by
  cases cut with
  | behind members' => exact .unfinished _ _
  | comma goes => exact .unfinished _ _
  | key same fault' => exact .keyEnd same (.unfinished _ _)
  | value same value' members' =>
    rw [Doc.skimMembers_cons]
    exact .keyEnd same (.unfinished _ _)
  | member member others =>
    rw [Doc.skimMembers_cons, Doc.skimMembers_cons]
    exact .behind _ fun _ => .behind _ fun _ => others.skim
  | last key inside members' =>
    rw [Doc.skimMembers_cons, Doc.skimMembers_cons]
    exact .behind _ fun _ => inside.skim.bind _ _

end

/-- A value of the wrong type is named at its opening, or read first. -/
theorem Doc.Cut.mismatch {doc doc' : Doc} (cut : Doc.Cut signed bracketed doc doc')
    (expected : String) : Stays sign bracket (doc.mismatch expected : Except Fault α)
      (doc'.mismatch expected) := by
  cases cut with
  | absent | word | null | bool | numeral | number => exact .unfinished _ _
  | string inside => exact (inside.value.bind _ _).bind _ _
  | array | object | deepArray | deepObject => exact .same _

end RulesText.Json

namespace RulesText.Format
open RulesText.Json

variable {α β γ : Type} {loose signed bracketed sign bracket : Prop}

/-! ## Readers -/

/-- Whether a reader of a document that is cut off meets a fault that stays when the text goes on.
Only a `loose` reader makes the exceptions. -/
structure Reader.Final (loose : Prop) (read : Reader α) : Prop where
  absent : ∃ inside, read .text (.broken .absent) = .error (.unfinished inside)
  cut : ∀ {signed bracketed : Prop} {doc doc' : Doc}, Doc.Cut signed bracketed doc doc' →
    Stays (loose ∧ signed) (loose ∧ bracketed) (read .text doc) (read .text doc')

theorem Reader.Final.bind {read : Reader α} (final : read.Final loose)
    (after : α → Except Fault β) :
    Reader.Final loose fun source doc => read source doc >>= after := by
  constructor
  · obtain ⟨inside, absent⟩ := final.absent
    exact ⟨inside, by rw [absent]; rfl⟩
  · exact fun cut => (final.cut cut).bind _ _

theorem final_integer {low high : Int} {type : String} :
    Reader.Final loose fun _ doc => integer low high type doc := by
  refine ⟨⟨_, rfl⟩, fun cut => ?_⟩
  cases cut with
  | absent | word | null | bool | numeral | number => exact .unfinished _ _
  | string inside => exact (inside.value.bind _ _).bind _ _
  | array | object | deepArray | deepObject => exact .same _

theorem final_uint32 : uint32.Final loose := final_integer.bind _

theorem final_boolean : boolean.Final loose := by
  refine ⟨⟨_, rfl⟩, fun cut => ?_⟩
  cases cut with
  | absent | word | null | bool | numeral | number => exact .unfinished _ _
  | string inside => exact (inside.value.bind _ _).bind _ _
  | array | object | deepArray | deepObject => exact .same _

theorem final_string : string.Final loose := by
  refine ⟨⟨_, rfl⟩, fun cut => ?_⟩
  cases cut with
  | absent | word | null | bool | numeral | number => exact .unfinished _ _
  | string inside => exact inside.value
  | array | object | deepArray | deepObject => exact .same _

/-! ## Words and tags -/

section

variable {κ : Type} [Vocabulary κ]

theorem stays_unit {doc doc' : Doc} (cut : Doc.Cut signed bracketed doc doc') :
    Stays sign bracket (unit doc) (unit doc') := by
  cases cut with
  | absent | word | null | bool | numeral | number => exact .unfinished _ _
  | string inside => exact (inside.value.bind _ _).bind _ _
  | array | object | deepArray | deepObject => exact .same _

/-- Behind the null of a word the object must end, and anything else is the same fault. -/
theorem stays_wordOfMembers {members members' : List (Quoted × Doc)} {ending ending' : ObjectEnd}
    (cut : MembersCut signed bracketed members ending members' ending') :
    Stays sign bracket (wordOfMembers members ending : Except Fault κ)
      (wordOfMembers members' ending') := by
  cases cut with
  | behind members' => exact .unfinished _ _
  | comma goes => exact .unfinished _ _
  | key same fault' => exact .key same fun _ => .behind _ fun _ => .unfinished _ _
  | value same value' members' => exact .key same fun _ => .behind _ fun _ => .unfinished _ _
  | last key inside members' =>
    exact .behind _ fun _ => .behind _ fun _ => (stays_unit inside).bind _ _
  | member member others =>
    refine .behind _ fun name => .behind _ fun word => .behind _ fun null => ?_
    cases others with
    | behind members' => exact .unfinished _ _
    | key | value | member | last => exact .same _
    | comma goes =>
      rename_i ending' members'
      cases members' with
      | cons member members' => exact .same _
      | nil =>
        cases ending' with
        | closed | unfinished => simp at goes
        | unseparated | trailingComma | cutAfterComma | notKey | loneKey => exact .same _

theorem final_word : (word : Reader κ).Final loose := by
  refine ⟨⟨_, rfl⟩, fun cut => ?_⟩
  cases cut with
  | absent => exact .unfinished _ _
  | word | null | bool | numeral | number => exact .same _
  | string inside => exact inside.value.bind _ _
  | array | deepArray | deepObject => exact .same _
  | object inside => exact stays_wordOfMembers inside

/-- A value with several readings is checked before any of them is tried. -/
theorem final_alternatives {type : String} {read? : Doc → Option α} :
    (alternatives type read?).Final loose :=
  ⟨⟨_, rfl⟩, fun cut => cut.check.bind _ _⟩

theorem final_openTag (type : String) : (openTag type : Reader (OpenTag κ)).Final loose :=
  final_alternatives

end

/-! ## Compounds -/

theorem Reader.Final.nullable {read : Reader α} (final : read.Final loose) :
    (nullable read).Final loose := by
  have present {doc doc' : Doc} {signed bracketed : Prop}
      (cut : Doc.Cut signed bracketed doc doc') :
      Stays (loose ∧ signed) (loose ∧ bracketed) (some <$> read .text doc)
        (some <$> read .text doc') := (final.cut cut).bind _ _
  obtain ⟨inside, absent⟩ := final.absent
  have absent' : Format.nullable read .text (.broken .absent) = .error (.unfinished inside) := by
    unfold Format.nullable
    rw [absent]
    rfl
  refine ⟨⟨inside, absent'⟩, fun cut => ?_⟩
  have whole := cut
  cases cut with
  | absent doc' =>
    rw [absent']
    exact .unfinished _ _
  | word isNull ended =>
    cases isNull with
    | true => exact .unfinished _ _
    | false => exact present whole
  | null => exact .unfinished _ _
  | bool | numeral | number | string | array | object | deepArray | deepObject =>
    exact present whole

/-- The items are read one by one, and then it is looked at how the list ends. -/
theorem Reader.Final.stays_items {read : Reader α} (final : read.Final loose)
    {items items' : List Doc} {ending ending' : ListEnd}
    (cut : ItemsCut signed bracketed items ending items' ending')
    (next next' : List α → Except Fault β) :
    Stays (loose ∧ signed) (loose ∧ bracketed)
      (do let values ← items.mapM (read .text); ending.check; next values)
      (do let values ← items'.mapM (read .text); ending'.check; next' values) := by
  induction items generalizing items' next next' with
  | nil =>
    cases cut with
    | behind items' => exact .unfinished _ _
  | cons item items ih =>
    simp only [List.mapM_cons, bind_assoc, pure_bind]
    cases cut with
    | comma _ =>
      obtain ⟨inside, absent⟩ := final.absent
      rw [absent]
      exact .unfinished inside _
    | item item others =>
      simp only [List.mapM_cons, bind_assoc, pure_bind]
      exact .behind _ fun a => ih others _ _
    | last inside items' =>
      simp only [List.mapM_cons, bind_assoc, pure_bind]
      exact (final.cut inside).bind _ _

theorem Reader.Final.list {read : Reader α} (final : read.Final loose) :
    (list read).Final loose := by
  refine ⟨⟨_, rfl⟩, fun cut => ?_⟩
  cases cut with
  | absent | word | null | bool | numeral | number => exact .unfinished _ _
  | string inside => exact (inside.value.bind _ _).bind _ _
  | array inside => exact final.stays_items inside pure pure
  | object | deepArray | deepObject => exact .same _

/-! ## Shapes -/

/-- Whether the readers of all members of a shape meet faults that stay. -/
def Shape.Final {α : Type} (loose : Prop) : Shape α → Prop
  | .value _ => True
  | .member field rest => field.read.Final loose ∧ rest.Final loose

namespace Shape.Final

theorem probe? {shape : Shape α} (final : shape.Final loose) {name : String}
    {probe : Doc → Except Fault Unit} (found : shape.probe? .text name = some probe)
    {doc doc' : Doc} (cut : Doc.Cut signed bracketed doc doc') :
    Stays (loose ∧ signed) (loose ∧ bracketed) (probe doc) (probe doc') := by
  induction shape with
  | value a => cases found
  | member field rest ih =>
    rw [Shape.probe?] at found
    split at found
    · cases found
      exact (final.1.cut cut).bind _ _
    · exact ih final.2 found

/-- By position, the text ends in a member, or it is left to what comes behind the members. -/
theorem stays_deal {shape : Shape α} (final : shape.Final loose) {expected : String} {index : Nat}
    {items items' : List Doc} {ending ending' : ListEnd}
    (cut : ItemsCut signed bracketed items ending items' ending')
    {next next' : α × List Doc → Except Fault β}
    (stays : ∀ a left left', ItemsCut signed bracketed left ending left' ending' →
      Stays (loose ∧ signed) (loose ∧ bracketed) (next (a, left)) (next' (a, left'))) :
    Stays (loose ∧ signed) (loose ∧ bracketed)
      (shape.deal .text expected ending index items >>= next)
      (shape.deal .text expected ending' index items' >>= next') := by
  induction shape generalizing index items items' with
  | value a =>
    unfold Shape.deal
    exact stays a items items' cut
  | member field rest ih =>
    cases cut with
    | behind items' => exact .unfinished _ _
    | comma _ =>
      obtain ⟨inside, absent⟩ := final.1.absent
      simp only [Shape.deal, absent]
      exact .unfinished inside _
    | item item others =>
      simp only [Shape.deal, bind_assoc, pure_bind]
      exact .behind _ fun a => ih final.2 others fun build left left' cut => stays _ _ _ cut
    | last inside items' =>
      simp only [Shape.deal, bind_assoc]
      exact (final.1.cut inside).bind _ _

end Shape.Final

/-! ## Records -/

namespace Record

variable {record : Record α}

theorem stays_inspectValue (final : record.shape.Final True) (name : String) {doc doc' : Doc}
    (cut : Doc.Cut signed bracketed doc doc') :
    Stays (True ∧ signed) (True ∧ bracketed) (record.inspectValue .text name doc)
      (record.inspectValue .text name doc') := by
  unfold inspectValue
  cases found : record.shape.probe? .text name with
  | some probe => exact final.probe? found cut
  | none =>
    rw [true_and, true_and]
    exact cut.skim

theorem stays_inspect (final : record.shape.Final True) (seen : List String)
    {members members' : List (Quoted × Doc)} {ending ending' : ObjectEnd}
    (cut : MembersCut signed bracketed members ending members' ending') :
    Stays (True ∧ signed) (True ∧ bracketed) (record.inspect .text seen members ending)
      (record.inspect .text seen members' ending') := by
  induction members generalizing members' seen with
  | nil =>
    cases cut with
    | behind members' => exact .unfinished _ _
    | comma goes => exact .unfinished _ _
    | key same fault' => exact .key same fun _ => .behind _ fun _ => .unfinished _ _
    | value same value' members' => exact .key same fun _ => .behind _ fun _ => .unfinished _ _
  | cons member members ih =>
    cases cut with
    | member _ others =>
      exact .behind _ fun _ => .behind _ fun _ => .behind _ fun _ => ih _ others
    | last key inside members' =>
      refine .behind _ fun name => .behind _ fun _ => ?_
      exact (stays_inspectValue final name inside).bind _ _

/-- Behind the last member by position anything but the closing bracket is left over, and a comma
is left over as such. -/
theorem stays_finish {length length' : Nat} {left left' : List Doc} {ending ending' : ListEnd}
    (cut : ItemsCut signed bracketed left ending left' ending') :
    Stays sign (True ∧ bracketed) (record.finish .text length left ending)
      (record.finish .text length' left' ending') := by
  cases cut with
  | behind items' => exact .unfinished _ _
  | comma bracket => exact .comma ⟨trivial, bracket⟩
  | item | last => exact .same _

variable (record) in
/-- What becomes of a record is carried over from its members. -/
theorem final (final : record.shape.Final True) : record.read.Final True := by
  refine ⟨⟨_, rfl⟩, fun cut => ?_⟩
  cases cut with
  | absent | word | null | bool | numeral | number => exact .unfinished _ _
  | string inside => exact (inside.value.bind _ _).bind _ _
  | object inside => exact (stays_inspect final [] inside).bind _ _
  | array inside =>
    exact final.stays_deal inside fun a left left' cut => (stays_finish cut).bind _ _
  | deepArray | deepObject => exact .same _

end Record

/-! ## Records with a tag -/

section

variable {κ : Type} [Vocabulary κ]

theorem stays_tagWord {doc doc' : Doc} (cut : Doc.Cut signed bracketed doc doc') :
    Stays sign bracket (tagWord doc : Except Fault κ) (tagWord doc') := by
  cases cut with
  | absent | word | null | bool | numeral | number => exact .unfinished _ _
  | string inside => exact inside.value.bind _ _
  | array | object | deepArray | deepObject => exact .same _

theorem stays_tagOfMembers (tag : Option κ) {members members' : List (Quoted × Doc)}
    {ending ending' : ObjectEnd}
    (cut : MembersCut signed bracketed members ending members' ending') :
    Stays sign bracket (tagOfMembers tag members ending) (tagOfMembers tag members' ending') := by
  induction members generalizing members' tag with
  | nil =>
    cases cut with
    | behind members' => exact .unfinished _ _
    | comma goes => exact .unfinished _ _
    | key same fault' => exact .key same fun _ => .behind _ fun _ => .unfinished _ _
    | value same value' members' => exact .key same fun _ => .behind _ fun _ => .unfinished _ _
  | cons member members ih =>
    cases cut with
    | member _ others =>
      refine .behind _ fun name => .behind _ fun _ => ?_
      split
      · exact .behind _ fun word => ih _ others
      · exact .behind _ fun _ => ih _ others
    | last key inside members' =>
      refine .behind _ fun name => .behind _ fun _ => ?_
      split
      · exact (stays_tagWord inside).bind _ _
      · exact inside.check.bind _ _

/-- A record that its tag selects is checked as a whole before it is read, so whatever is cut off in
it is at fault before its members matter. -/
theorem final_tagged (title : String) (record : κ → Record α) :
    (tagged title record).Final loose := by
  refine ⟨⟨_, rfl⟩, fun cut => ?_⟩
  cases cut with
  | absent | word | null | bool | numeral | number => exact .unfinished _ _
  | string inside => exact (inside.value.bind _ _).bind _ _
  | object inside => exact (stays_tagOfMembers none inside).bind _ _
  | deepArray | deepObject => exact .same _
  | array inside =>
    cases inside with
    | behind items' => exact .unfinished _ _
    | comma _ => exact .unfinished _ _
    | last inside items' => exact (stays_tagWord inside).bind _ _
    | item tag others =>
      refine .behind _ fun word => ?_
      simp only [← bind_assoc]
      exact others.check.bind _ _

end

end RulesText.Format
