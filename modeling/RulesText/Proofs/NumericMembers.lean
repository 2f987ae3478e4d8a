import RulesText.Proofs.Meanings
import RulesText.Proofs.OpenTags
import RulesText.Proofs.Strangers

/-!
# Members that hold a number

A reader counts if it takes exactly the numerals of the integers in a range, each for that integer.
What it makes of a numeral is carried from a member to the record around it, by name and by
position, in records with and without a tag, and from an item to the list around it: with everything
else left as it is, a numeral there is read exactly if it is an integer in the range, and the whole
then holds that integer.
-/

namespace RulesText.Json
open RulesText.Format

namespace Doc

/-- What is put in the place of a member leaves the record complete if it is complete itself. -/
theorem Around.check {names : List String} {name : String} {fill : Doc → Doc}
    (around : Around names name fill) {inner inner' : Doc} (checked : (fill inner).check = .ok ())
    (checked' : inner'.check = .ok ()) : (fill inner').check = .ok () := by
  cases around with
  | member before after named ending =>
    rw [check_object_iff] at checked ⊢
    exact ⟨forall_mem_exchange checked.1 fun ⟨spelled, _⟩ => ⟨spelled, checked'⟩, checked.2⟩
  | item placed after ending =>
    rw [check_array_iff] at checked ⊢
    exact ⟨forall_mem_exchange checked.1 fun _ => checked', checked.2⟩

theorem Around.keepsText {names : List String} {name : String} {fill : Doc → Doc}
    (around : Around names name fill) {inner inner' : Doc} (keeps : KeepsText inner inner') :
    KeepsText (fill inner) (fill inner') :=
  (Within.mk around keeps).keepsText id

/-- What is put in the place of a member behind the tag leaves the tag as it is. -/
theorem Around.hasKind {κ : Type} [Vocabulary κ] {names : List String} {name : String}
    {fill : Doc → Doc} (around : Around (tagMember :: names) name fill) (other : name ≠ tagMember)
    {kind : κ} {inner : Doc} (typed : (fill inner).HasKind kind) (inner' : Doc) :
    (fill inner').HasKind kind := by
  obtain ⟨quoted, place, spelled⟩ := typed
  refine ⟨quoted, ?_, spelled⟩
  rw [← place]
  cases around with
  | member before after named ending =>
    exact (lookup_middle_other named other inner').trans
      (lookup_middle_other named other inner).symm
  | @item before placed after ending =>
    cases before with
    | nil => exact absurd (Option.some.inj placed).symm other
    | cons tag before => rfl

/-- A position among names of their own is found by its name. -/
theorem lookup_zip_middle {names : List String} (distinct : names.Nodup) {name : String}
    {before : List Doc} (placed : names[before.length]? = some name) (inner : Doc)
    (after : List Doc) : (names.zip (before ++ inner :: after)).lookup name = some inner := by
  induction names generalizing before with
  | nil => cases placed
  | cons first names ih =>
    obtain ⟨fresh, distinct⟩ := List.nodup_cons.1 distinct
    cases before with
    | nil =>
      obtain rfl : first = name := Option.some.inj placed
      exact List.lookup_cons_self
    | cons item before =>
      have later : names[before.length]? = some name := placed
      have different : (name == first) = false := by
        rw [beq_eq_false_iff_ne]
        rintro rfl
        exact fresh (List.mem_of_getElem? later)
      rw [List.cons_append, List.zip_cons_cons, List.lookup_cons, different]
      exact ih distinct later

end Doc

end RulesText.Json

namespace RulesText.Format
open RulesText.Json

variable {α β γ : Type} {source : Source}

/-! ## The place of a member -/

/-- What stands around the place of a member has the member at that place. -/
theorem Record.member?_around {record : Record α} {field : Field β} (has : record.shape.Has field)
    (distinct : record.shape.names.Nodup) {fill : Doc → Doc}
    (around : Doc.Around record.shape.names field.name fill) {inner : Doc} {value : α}
    (done : record.read source (fill inner) = .ok value) :
    (fill inner).member? record.shape.names field.name = some inner := by
  cases around with
  | member before after named ending =>
    obtain ⟨_, passes, _⟩ := ofMembers_eq_ok_iff.1 done
    exact lookup_middle_self named (by simpa using passes.once field.name has.mem_names) inner
  | item placed after ending => exact Doc.lookup_zip_middle distinct placed inner after

theorem tagged_member?_around {κ : Type} [Vocabulary κ] {record : κ → Record α} {title : String}
    {w : κ} {field : Field β} (has : (record w).shape.Has field)
    (distinct : (tagMember :: (record w).shape.names).Nodup) {fill : Doc → Doc}
    (around : Doc.Around (tagMember :: (record w).shape.names) field.name fill) {inner : Doc}
    {value : α} (typed : (fill inner).HasKind w)
    (done : tagged title record source (fill inner) = .ok value) :
    (fill inner).member? (tagMember :: (record w).shape.names) field.name = some inner := by
  cases around with
  | member before after named ending =>
    obtain ⟨_, w', tags, kept⟩ := of_tagged_object done
    obtain rfl := (hasKind_of_tags tags).unique typed
    have other : field.name ≠ tagMember := fun same =>
      (List.nodup_cons.1 distinct).1 (same ▸ has.mem_names)
    obtain ⟨_, passes, _⟩ := Record.ofMembers_eq_ok_iff.1 kept
    have once := passes.once field.name has.mem_names
    rw [valuesOf_payload other] at once
    exact lookup_middle_self named (by simpa using once) inner
  | item placed after ending => exact Doc.lookup_zip_middle distinct placed inner after

/-- Around the place of a member behind the tag, the tag stays where containers are cut off. -/
theorem tagged_limitDepth {κ : Type} [Vocabulary κ] {names : List String} {name : String}
    {fill : Doc → Doc} {kind : κ} (typed : ∀ inner, (fill inner).HasKind kind)
    (around : Doc.Around (tagMember :: names) name fill) (other : name ≠ tagMember) (room : Nat) :
    ∃ fill', (∀ inner, (fill' inner).HasKind kind) ∧
      Doc.Around (tagMember :: names) name fill' ∧
      ∀ inner, (fill inner).limitDepth (room + 1) = fill' (inner.limitDepth room) := by
  obtain ⟨fill', around', same⟩ := around.limitDepth room
  have placed : (fill' (Doc.null.limitDepth room)).HasKind kind := by
    rw [← same]
    exact (typed .null).limitDepth room
  exact ⟨fill', around'.hasKind other placed, around', same⟩

/-! ## Members of a shape -/

/-- Whether a field is among the members of a shape, and what is read for it is related to what is
gathered. -/
structure Shape.Keeps (field : Field β) (related : α → β → Prop) (shape : Shape α) : Prop where
  has : shape.Has field
  finds : ∀ source find, shape.Finds source find fun value => ∀ doc b,
    find field.name = some doc → field.read source doc = .ok b → related value b

namespace Shape.Keeps

variable {field : Field β}

theorem own {related : β → β → Prop} (same : ∀ b, related b b) :
    (Shape.member field (.value id)).Keeps field related := by
  refine ⟨.here _, fun source find => (Finds.field field).mono fun a reads doc b place read => ?_⟩
  obtain rfl : a = b := Except.ok.inj ((reads doc place).symm.trans read)
  exact same a

theorem map {shape : Shape α} {build : α → γ} {related : γ → β → Prop}
    (keeps : shape.Keeps field fun a b => related (build a) b) :
    (build <$> shape).Keeps field related :=
  ⟨keeps.has.map build, fun source find => .map (keeps.finds source find)⟩

theorem seq_left {shape : Shape (α → γ)} {related : γ → β → Prop}
    (keeps : shape.Keeps field fun build b => ∀ a, related (build a) b) (next : Shape α) :
    (shape <*> next).Keeps field related := by
  refine ⟨keeps.has.seq_left next, fun source find => .seq (P := fun _ => True) ?_ (.any _)⟩
  exact (keeps.finds source find).mono fun build kept a _ doc b place read =>
    kept doc b place read a

theorem seq_right {shape : Shape (α → γ)} {next : Shape α} {related : α → β → Prop}
    {related' : γ → β → Prop} (keeps : next.Keeps field related)
    (builds : shape.Yields fun build => ∀ a b, related a b → related' (build a) b) :
    (shape <*> next).Keeps field related' := by
  refine ⟨keeps.has.seq_right shape, fun source find => .seq ?_ (keeps.finds source find)⟩
  intro build gathered a kept doc b place read
  exact builds build (Shape.built_of_gather gathered) a b (kept doc b place read)

/-- What holds of all that is built may be used. -/
theorem yields {shape : Shape α} {related : α → β → Prop} (keeps : shape.Keeps field related)
    {P : α → Prop} (yields : shape.Yields P) :
    shape.Keeps field fun a b => P a ∧ related a b :=
  ⟨keeps.has, fun source find value gathered doc b place read =>
    ⟨yields value (Shape.built_of_gather gathered),
      keeps.finds source find value gathered doc b place read⟩⟩

end Shape.Keeps

/-! ## Readers of numbers -/

/-- A range of integers, all of which a numeral can stand for. -/
structure Extent where
  low : Int
  high : Int
  low_inRange : InRange low
  high_inRange : InRange high

namespace Extent

/-- Whether an integer is in the range. -/
def Holds (extent : Extent) (n : Int) : Prop := extent.low ≤ n ∧ n ≤ extent.high

/-- The unsigned 32-bit integers. -/
def unsigned : Extent := ⟨0, 4294967295, by unfold InRange; omega, by unfold InRange; omega⟩

/-- The signed 32-bit integers. -/
def signed : Extent :=
  ⟨-2147483648, 2147483647, by unfold InRange; omega, by unfold InRange; omega⟩

/-- A numeral of an integer in the range can be kept. -/
theorem Holds.check {extent : Extent} {n : Int} (holds : extent.Holds n) {numeral : Numeral}
    (integer : numeral.integer? = some n) : (Doc.number numeral).check = .ok () := by
  have low := extent.low_inRange
  have high := extent.high_inRange
  have inside : InRange n := by
    unfold Holds at holds
    unfold InRange at low high ⊢
    omega
  exact discard_eq_ok_iff.2 ⟨_, value_eq_int_iff.2 ⟨integer, inside⟩⟩

end Extent

/-- Whether a reader takes exactly the numerals of the integers in a range, each for that
integer. -/
structure Reader.Counts (read : Reader α) (extent : Extent) (shown : α → Option Int) : Prop where
  reads : ∀ {source numeral n}, numeral.integer? = some n → extent.Holds n →
    ∃ a, read source (.number numeral) = .ok a
  only : ∀ {source numeral a}, read source (.number numeral) = .ok a →
    ∃ n, numeral.integer? = some n ∧ extent.Holds n ∧ shown a = some n

theorem counts_uint32 : uint32.Counts .unsigned fun value => some (value.toNat : Int) := by
  refine ⟨fun {source numeral n} integer holds => ?_, fun {source numeral value} read => ?_⟩
  · obtain ⟨low, high⟩ : 0 ≤ n ∧ n ≤ 4294967295 := holds
    have small : n.toNat < UInt32.size := by
      show n.toNat < 4294967296
      omega
    refine ⟨.ofNat n.toNat, uint32_number_iff.2 ?_⟩
    rw [UInt32.toNat_ofNat_of_lt' small, Int.toNat_of_nonneg low, integer]
  · have bound := value.toNat_lt
    have holds : 0 ≤ (value.toNat : Int) ∧ (value.toNat : Int) ≤ 4294967295 := by omega
    exact ⟨_, uint32_number_iff.1 read, holds, rfl⟩

theorem counts_int32 : int32.Counts .signed fun value => some value.toInt := by
  refine ⟨fun {source numeral n} integer holds => ?_, fun {source numeral value} read => ?_⟩
  · obtain ⟨low, high⟩ : -2147483648 ≤ n ∧ n ≤ 2147483647 := holds
    refine ⟨.ofInt n, int32_number_iff.2 ?_⟩
    rw [Int32.toInt_ofInt_of_le (by omega) (by omega), integer]
  · have low := value.le_toInt
    have high := value.toInt_lt
    have holds : -2147483648 ≤ value.toInt ∧ value.toInt ≤ 2147483647 := by omega
    exact ⟨_, int32_number_iff.1 read, holds, rfl⟩

/-- Where null may stand as well, a numeral is read as before. -/
theorem Reader.Counts.nullable {read : Reader α} {extent : Extent} {shown : α → Option Int}
    (counts : read.Counts extent shown) :
    (nullable read).Counts extent fun value => value.bind shown := by
  have reads (source : Source) (numeral : Numeral) (value : Option α) :
      Format.nullable read source (.number numeral) = .ok value ↔
        ∃ a, read source (.number numeral) = .ok a ∧ value = some a :=
    nullable_eq_ok_iff nofun nofun
  refine ⟨fun integer holds => ?_, fun done => ?_⟩
  · obtain ⟨a, read⟩ := counts.reads integer holds
    exact ⟨some a, (reads _ _ _).2 ⟨a, read, rfl⟩⟩
  · obtain ⟨a, read, rfl⟩ := (reads _ _ _).1 done
    exact counts.only read

/-! ## Numbers inside a document -/

/-- What becomes of a numeral at one place, with everything else as it is in a document that is
read: it is read if it is an integer in the range, and only then, and what is read shows that
integer. -/
structure Exact (read : Doc → Except Fault α) (fill : Doc → Doc) (extent : Extent)
    (shows : α → Int → Prop) : Prop where
  reads : ∀ {inner value numeral n}, read (fill inner) = .ok value →
    numeral.integer? = some n → extent.Holds n →
      ∃ value', read (fill (.number numeral)) = .ok value'
  only : ∀ {numeral value}, read (fill (.number numeral)) = .ok value →
    ∃ n, numeral.integer? = some n ∧ extent.Holds n ∧ shows value n

theorem Reader.Counts.exact {read : Reader α} {extent : Extent} {shown : α → Option Int}
    (counts : read.Counts extent shown) :
    Exact (read source) id extent fun value n => shown value = some n :=
  ⟨fun _ => counts.reads, counts.only⟩

namespace Exact

variable {fill outer : Doc → Doc} {extent : Extent} {shows : α → Int → Prop}
  {shows' : β → Int → Prop}

/-- What depends on a document through a reader is as exact as the reader. -/
theorem of_around {whole : Doc → Except Fault α} {part : Doc → Except Fault β}
    (outer : Doc → Doc) (inside : Exact part fill extent shows')
    (depends : ∀ {inner value}, whole (outer (fill inner)) = .ok value → ∃ build : β → α,
      whole (outer (fill inner)) = build <$> part (fill inner) ∧
        ∀ {numeral n}, numeral.integer? = some n → extent.Holds n →
          whole (outer (fill (.number numeral))) = build <$> part (fill (.number numeral)))
    (carried : ∀ {numeral value b n}, whole (outer (fill (.number numeral))) = .ok value →
      part (fill (.number numeral)) = .ok b → shows' b n → shows value n) :
    Exact whole (fun inner => outer (fill inner)) extent shows := by
  refine ⟨fun done integer holds => ?_, fun done => ?_⟩
  · obtain ⟨build, same, other⟩ := depends done
    rw [same] at done
    obtain ⟨b, read, _⟩ := bind_eq_ok done
    obtain ⟨b', read'⟩ := inside.reads read integer holds
    exact ⟨build b', by rw [other integer holds, read']; rfl⟩
  · obtain ⟨build, same, _⟩ := depends done
    have read := same.symm.trans done
    obtain ⟨b, read, _⟩ := bind_eq_ok read
    obtain ⟨n, integer, holds, shown⟩ := inside.only read
    exact ⟨n, integer, holds, carried done read shown⟩

/-- One member of a record. -/
theorem record {record : Record α} {field : Field β} {related : α → β → Prop}
    (keeps : record.shape.Keeps field related) (distinct : record.shape.names.Nodup)
    (around : Doc.Around record.shape.names field.name outer)
    (inside : Exact (field.read source) fill extent shows')
    (carried : ∀ {value b n}, related value b → shows' b n → shows value n) :
    Exact (record.read source) (fun inner => outer (fill inner)) extent shows := by
  refine inside.of_around outer (fun done => ?_) fun done read => carried ?_
  · obtain ⟨build, depends⟩ := Record.read_around keeps.has distinct around done
    exact ⟨build, depends _, fun _ _ => depends _⟩
  · exact keeps.finds _ _ _ (Record.gather_of_read distinct done) _ _
      (Record.member?_around keeps.has distinct around done) read

/-- One member of a record with a tag, if a numeral there can be kept. -/
theorem tagged {κ : Type} [Vocabulary κ] {record : κ → Record α} {title : String} {w : κ}
    {field : Field β} {related : α → β → Prop} (keeps : (record w).shape.Keeps field related)
    (distinct : ∀ w, (tagMember :: (record w).shape.names).Nodup)
    (around : Doc.Around (tagMember :: (record w).shape.names) field.name outer)
    (typed : ∀ inner, (outer inner).HasKind w)
    (kept : ∀ {inner inner'}, (fill inner).check = .ok () → inner'.check = .ok () →
      (fill inner').check = .ok ())
    (inside : Exact (field.read .buffer) fill extent shows')
    (carried : ∀ {value b n}, related value b → shows' b n → shows value n) :
    Exact (Format.tagged title record source) (fun inner => outer (fill inner)) extent shows := by
  refine inside.of_around outer (fun done => ?_) fun done read => carried ?_
  · obtain ⟨checked, build, depends⟩ :=
      tagged_around keeps.has (distinct w) around (typed _) done
    exact ⟨build, depends _ checked, fun integer holds =>
      depends _ (kept checked (holds.check integer))⟩
  · have place := tagged_member?_around keeps.has (distinct w) around (typed _) done
    obtain ⟨w', typed', gathered⟩ := gather_of_tagged distinct done
    obtain rfl := typed'.unique (typed _)
    exact keeps.finds _ _ _ gathered _ _ place read

/-- One item of a list. -/
theorem list {read : Reader β} (before after : List Doc) (ending : ListEnd)
    (inside : Exact (read source) fill extent shows') :
    Exact (Format.list read source) (fun inner => .array (before ++ fill inner :: after) ending)
      extent fun values n => ∃ b, values[before.length]? = some b ∧ shows' b n := by
  refine inside.of_around (fun item => .array (before ++ item :: after) ending)
    (fun done => ?_) fun {numeral _ b _} done read shown => ⟨b, ?_, shown⟩
  · obtain ⟨build, depends⟩ := list_around done
    exact ⟨build, depends _, fun _ _ => depends _⟩
  · have place : (before ++ fill (.number numeral) :: after)[before.length]? =
        some (fill (.number numeral)) := by simp
    obtain ⟨b', read', listed⟩ := getElem?_of_list done place
    obtain rfl := Except.ok.inj (read'.symm.trans read)
    exact listed

/-- A record where null might stand. -/
theorem nullable {read : Reader β} {names : List String} {name : String}
    (around : Doc.Around names name fill) (inside : Exact (read source) fill extent shows') :
    Exact (Format.nullable read source) fill extent
      fun value n => ∃ b, value = some b ∧ shows' b n := by
  have reads (inner : Doc) : Format.nullable read source (fill inner) =
      some <$> read source (fill inner) := by
    cases around <;> rfl
  refine inside.of_around id (fun _ => ⟨some, reads _, fun _ _ => reads _⟩)
    fun {numeral value b n} done read shown => ⟨b, ?_, shown⟩
  have present := (reads (.number numeral)).symm.trans done
  rw [read] at present
  exact (Except.ok.inj present).symm

end Exact

end RulesText.Format
