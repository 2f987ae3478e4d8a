import Mathlib.Data.List.Induction
import Mathlib.Data.List.TakeWhile
import RulesText.Proofs.Scanned

/-!
# Integers are read as they are written

An integer is a numeral without a fraction and an exponent, and a zero among them has no sign. Its
literal is the only one of that integer. A reader of integers takes exactly the numerals of the
integers in its range, whatever their length: an integer beyond the 64-bit range is no integer for
the reader either, and is in no range.
-/

namespace RulesText.Json

/-- The integer that a numeral is, if it has no fraction, no exponent and, for zero, no sign. -/
def Numeral.integer? (n : Numeral) : Option Int :=
  match n.fraction, n.exponent, n.negative, ofDigits 0 n.whole with
  | [], none, false, size => some size
  | [], none, true, size + 1 => some (-(size + 1 : Nat))
  | _, _, _, _ => none

theorem integer?_eq_some_iff {n : Numeral} {value : Int} : n.integer? = some value ↔
    n.fraction = [] ∧ n.exponent = none ∧ value.natAbs = ofDigits 0 n.whole ∧
      if n.negative then value < 0 else 0 ≤ value := by
  obtain ⟨negative, whole, fraction, exponent⟩ := n
  cases fraction with
  | cons d fraction => simp [Numeral.integer?]
  | nil =>
    cases exponent with
    | some exponent => simp [Numeral.integer?]
    | none =>
      cases negative with
      | false =>
        simp only [Numeral.integer?, Option.some.injEq, true_and, Bool.false_eq_true, if_false]
        omega
      | true =>
        simp only [Numeral.integer?, true_and, if_true]
        cases ofDigits 0 whole with
        | zero =>
          refine ⟨nofun, fun ⟨size, sign⟩ => ?_⟩
          omega
        | succ size =>
          simp only [Option.some.injEq]
          omega

/-! ## Values -/

theorem float_ne_int {negative : Bool} {significand : Nat} {exponent value : Int} :
    float negative significand exponent ≠ .ok (.int value) := by
  unfold float
  split <;> exact nofun

/-- Digits whose number does not fit are not all taken. -/
theorem absorb_lt {value : Nat} {digits : List Nat} (small : value < UInt64.size)
    (large : UInt64.size ≤ ofDigits value digits) : (absorb value digits).2 < digits.length := by
  induction digits generalizing value with
  | nil => exact absurd large (Nat.not_le.2 small)
  | cons d digits ih =>
    rw [absorb]
    split
    · rename_i next
      exact Nat.succ_lt_succ (ih next large)
    · exact Nat.succ_pos _

/-- The value of a numeral is an integer exactly if the numeral is one that fits. -/
theorem value_eq_int_iff {n : Numeral} {value : Int} :
    n.value = .ok (.int value) ↔ n.integer? = some value ∧ InRange value := by
  have size : UInt64.size = 18446744073709551616 := rfl
  rw [integer?_eq_some_iff]
  obtain ⟨negative, whole, fraction, exponent⟩ := n
  unfold Numeral.value InRange
  cases fraction with
  | cons d fraction => simp [float_ne_int]
  | nil =>
    cases exponent with
    | some exponent => simp [float_ne_int]
    | none =>
      by_cases small : ofDigits 0 whole < UInt64.size
      · simp only [absorb_eq small, Nat.sub_self, true_and]
        cases negative with
        | false =>
          simp only [if_true, Except.ok.injEq, Number.int.injEq, Bool.false_eq_true, if_false]
          omega
        | true =>
          simp only [Bool.true_eq_false, if_false, if_true]
          split
          · simp only [Except.ok.injEq, Number.int.injEq]
            omega
          · refine ⟨fun done => absurd done float_ne_int, fun both => ?_⟩
            omega
      · have cut := absorb_lt (by decide) (Nat.not_lt.1 small)
        have dropped : ¬ whole.length - (absorb 0 whole).2 = 0 := by omega
        simp only [dropped, false_and, if_false, true_and]
        refine ⟨fun done => absurd done float_ne_int, fun ⟨⟨same, _⟩, _, _⟩ => ?_⟩
        omega

/-! ## Literals -/

theorem ofDigits_concat (value : Nat) (digits : List Nat) (d : Nat) :
    ofDigits value (digits ++ [d]) = 10 * ofDigits value digits + d := by
  rw [ofDigits, ofDigits, List.foldl_append]
  rfl

theorem digitChar_digit {c : Char} (isDigit : c.isDigit = true) :
    digit c < 10 ∧ (digit c).digitChar = c := by
  have bounds : 48 ≤ c.toNat ∧ c.toNat ≤ 57 := Char.isDigit_iff_toNat.1 isDigit
  have small : digit c < 10 := by
    show c.toNat - 48 < 10
    omega
  refine ⟨small, Char.toNat_inj.1 ?_⟩
  rw [Nat.toNat_digitChar_of_lt_ten small]
  show 48 + (c.toNat - 48) = c.toNat
  omega

/-- Digits without a needless zero are those of their number. -/
theorem toDigits_ofDigits {text : List Char} (nonempty : text ≠ [])
    (digits : ∀ c ∈ text, c.isDigit = true) (leading : text ≠ ['0'] → text.head? ≠ some '0') :
    Nat.toDigits 10 (ofDigits 0 (text.map digit)) = text := by
  induction text using List.reverseRecOn with
  | nil => exact absurd rfl nonempty
  | append_singleton front c ih =>
    obtain ⟨small, same⟩ := digitChar_digit (digits c (by simp))
    rw [List.map_append, List.map_singleton, ofDigits_concat]
    cases front with
    | nil =>
      have alone : 10 * ofDigits 0 ([] : List Nat) + digit c = digit c := Nat.zero_add _
      rw [List.map_nil, alone, Nat.toDigits_of_lt_base small, same, List.nil_append]
    | cons first front =>
      -- The front begins with the same digit, so it stands for a number that is not zero.
      have nonzero : first ≠ '0' := by simpa using leading (by simp)
      have inner := ih (by simp) (fun d listed => digits d (List.mem_append_left _ listed))
        fun _ => by simpa using nonzero
      have positive : 0 < ofDigits 0 ((first :: front).map digit) := by
        refine Nat.pos_of_ne_zero fun zero => nonzero ?_
        rw [zero, Nat.toDigits_zero] at inner
        exact (List.cons.inj inner).1.symm
      rw [← Nat.toDigits_append_toDigits (by decide) positive small, inner,
        Nat.toDigits_of_lt_base small, same]

/-- A whole part that is a text of its own is the digits of its number. -/
theorem toDigits_of_scanWhole {text : List Char} {digits : List Nat}
    (read : scanWhole text = .ok (digits, [])) : Nat.toDigits 10 (ofDigits 0 digits) = text := by
  unfold scanWhole at read
  split at read
  · split at read
    · cases read
    · cases read
      rfl
  · rename_i nonzero
    obtain ⟨nonempty, scanned⟩ := scanSomeDigits_eq_ok_iff.1 read
    obtain ⟨rfl, none⟩ := Prod.mk.inj scanned
    have each : ∀ c ∈ text, c.isDigit = true := List.dropWhile_eq_nil_iff.1 none
    have whole : text.takeWhile Char.isDigit = text := List.takeWhile_eq_self_iff.2 each
    rw [whole] at nonempty ⊢
    refine toDigits_ofDigits (fun empty => nonempty (by rw [empty]; rfl)) each fun _ first => ?_
    obtain ⟨rest, rfl⟩ := List.head?_eq_some_iff.1 first
    exact nonzero rest rfl

theorem scanFraction_eq_nil {text rest : List Char} (read : scanFraction text = .ok ([], rest)) :
    rest = text := by
  unfold scanFraction at read
  split at read
  · exact absurd rfl (scanSomeDigits_eq_ok_iff.1 read).1
  · cases read
    rfl

theorem scanExponent_eq_none {text rest : List Char}
    (read : scanExponent text = .ok (none, rest)) : rest = text := by
  unfold scanExponent at read
  split at read
  · split at read
    · obtain ⟨_, _, done⟩ := Format.bind_eq_ok read
      cases done
    · cases read
      rfl
  · cases read
    rfl

/-- A magnitude without fraction and exponent that is a text of its own is the digits of its
number. -/
theorem toDigits_of_scanMagnitude {text : List Char} {negative : Bool} {numeral : Numeral}
    (read : scanMagnitude negative text = .ok (numeral, [])) (point : numeral.fraction = [])
    (letter : numeral.exponent = none) : numeral.negative = negative ∧
      Nat.toDigits 10 (ofDigits 0 numeral.whole) = text := by
  obtain ⟨⟨whole, behindWhole⟩, scannedWhole, read⟩ := Format.bind_eq_ok read
  obtain ⟨⟨fraction, behindFraction⟩, scannedFraction, read⟩ := Format.bind_eq_ok read
  obtain ⟨⟨exponent, behindExponent⟩, scannedExponent, done⟩ := Format.bind_eq_ok read
  cases done
  obtain rfl : fraction = [] := point
  obtain rfl : exponent = none := letter
  obtain rfl := scanFraction_eq_nil scannedFraction
  obtain rfl := scanExponent_eq_none scannedExponent
  exact ⟨rfl, toDigits_of_scanWhole scannedWhole⟩

theorem integer?_ofInt (value : Int) : (Numeral.ofInt value).integer? = some value := by
  refine integer?_eq_some_iff.2 ⟨rfl, rfl, (ofDigits_toDigits _).symm, ?_⟩
  by_cases sign : value < 0
  · simp [Numeral.ofInt, sign]
  · simp [Numeral.ofInt, Int.not_lt.1 sign]

/-- The literal of an integer has digits only, behind a sign at most, and is not that of a zero with
a sign. -/
theorem text_int_plain (value : Int) : (Number.int value).text ≠ "-0" ∧
    ∀ c ∈ (Number.int value).text.toList, c = '-' ∨ c.isDigit = true := by
  have digit {c : Char} (listed : c ∈ Nat.toDigits 10 value.natAbs) : c.isDigit = true :=
    isDigit_of_mem_toDigits listed
  constructor
  · intro same
    have characters : (Number.int value).text.toList = ['-', '0'] := by
      rw [same]
      rfl
    rw [text_int] at characters
    by_cases sign : value < 0
    · rw [if_pos sign] at characters
      have alone : Nat.toDigits 10 value.natAbs = ['0'] := (List.cons.inj characters).2
      exact toDigits_head (by omega : 0 < value.natAbs) (alone ▸ rfl)
    · rw [if_neg sign, List.nil_append] at characters
      exact absurd (digit (characters ▸ List.mem_cons_self)) (by decide)
  · intro c listed
    rw [text_int, List.mem_append] at listed
    refine listed.imp (fun front => ?_) digit
    split at front
    · exact List.mem_singleton.1 front
    · cases front

/-- The literal of an integer is the one that is printed for it, and no other numeral is read from
that. -/
theorem SpellsNumeral.integer?_eq_some_iff {numeral : Numeral} {literal : List Char}
    (spelled : SpellsNumeral numeral literal) {value : Int} :
    numeral.integer? = some value ↔ literal = (Number.int value).text.toList := by
  have read : scanNumeral literal = .ok (numeral, []) := by
    simpa using spelled [] endsNumeral_nil
  constructor
  · intro integer
    obtain ⟨point, letter, size, sign⟩ := Json.integer?_eq_some_iff.1 integer
    rw [text_int, size]
    by_cases signed : ∃ more, literal = '-' :: more
    · obtain ⟨more, rfl⟩ := signed
      rw [scanNumeral_minus] at read
      obtain ⟨negative, digits⟩ := toDigits_of_scanMagnitude read point letter
      rw [negative, if_pos rfl] at sign
      rw [if_pos sign, digits]
      rfl
    · have unsigned : ∀ c ∈ literal.head?, c ≠ '-' := by
        rintro _ first rfl
        obtain ⟨more, rfl⟩ := List.head?_eq_some_iff.1 first
        exact signed ⟨more, rfl⟩
      rw [scanNumeral_unsigned unsigned] at read
      obtain ⟨positive, digits⟩ := toDigits_of_scanMagnitude read point letter
      rw [positive, if_neg Bool.false_ne_true] at sign
      rw [if_neg (by omega), digits]
      rfl
  · rintro rfl
    have printed := scanNumeral_int value endsNumeral_nil
    rw [List.append_nil, read] at printed
    cases printed
    exact integer?_ofInt value

theorem text_int_injective {value value' : Int}
    (same : (Number.int value).text.toList = (Number.int value').text.toList) : value = value' := by
  have spelled : SpellsNumeral (.ofInt value) (Number.int value').text.toList :=
    same ▸ fun _ ends => scanNumeral_int value ends
  have integer := spelled.integer?_eq_some_iff.2 rfl
  exact Option.some.inj ((integer?_ofInt value).symm.trans integer)

end RulesText.Json

namespace RulesText.Format
open RulesText.Json

/-! ## Readers -/

theorem integer_number_iff {low high : Int} (inside : InRange low) (inside' : InRange high)
    {type : String} {numeral : Numeral} {value : Int} :
    integer low high type (.number numeral) = .ok value ↔
      numeral.integer? = some value ∧ low ≤ value ∧ value ≤ high := by
  have valued (v : Int) : numeral.value = .ok (.int v) ↔ numeral.integer? = some v ∧ InRange v :=
    value_eq_int_iff
  unfold InRange at inside inside' valued
  constructor
  · intro done
    obtain ⟨number, read, done⟩ := bind_eq_ok done
    cases number with
    | float negative magnitude => cases done
    | int v =>
      dsimp only at done
      split at done
      · cases done
        exact ⟨((valued _).1 read).1, ‹_›⟩
      · cases done
  · rintro ⟨spelled, bounds⟩
    refine bind_eq_ok_iff.2 ⟨_, (valued value).2 ⟨spelled, ?_⟩, if_pos bounds⟩
    omega

/-- A numeral is read as an unsigned number exactly if it is the integer of that number. -/
theorem uint32_number_iff {source : Source} {numeral : Numeral} {value : UInt32} :
    uint32 source (.number numeral) = .ok value ↔
      numeral.integer? = some (value.toNat : Int) := by
  have reads (n : Int) : integer 0 4294967295 "u32" (.number numeral) = .ok n ↔
      numeral.integer? = some n ∧ 0 ≤ n ∧ n ≤ 4294967295 :=
    integer_number_iff (by unfold InRange; omega) (by unfold InRange; omega)
  constructor
  · intro done
    obtain ⟨n, read, same⟩ := bind_eq_ok done
    obtain ⟨spelled, low, high⟩ := (reads n).1 read
    have small : n.toNat < UInt32.size := by
      show n.toNat < 4294967296
      omega
    cases same
    rw [spelled, UInt32.toNat_ofNat_of_lt' small, Int.toNat_of_nonneg low]
  · intro spelled
    have bound := value.toNat_lt
    refine bind_eq_ok_iff.2 ⟨_, (reads _).2 ⟨spelled, by omega, by omega⟩, ?_⟩
    rw [Int.toNat_natCast, UInt32.ofNat_toNat]
    rfl

/-- A numeral is read as a signed number exactly if it is the integer of that number. -/
theorem int32_number_iff {source : Source} {numeral : Numeral} {value : Int32} :
    int32 source (.number numeral) = .ok value ↔ numeral.integer? = some value.toInt := by
  have reads (n : Int) : integer (-2147483648) 2147483647 "i32" (.number numeral) = .ok n ↔
      numeral.integer? = some n ∧ -2147483648 ≤ n ∧ n ≤ 2147483647 :=
    integer_number_iff (by unfold InRange; omega) (by unfold InRange; omega)
  constructor
  · intro done
    obtain ⟨n, read, same⟩ := bind_eq_ok done
    obtain ⟨spelled, low, high⟩ := (reads n).1 read
    cases same
    rw [spelled, Int32.toInt_ofInt_of_le (by omega) (by omega)]
  · intro spelled
    have low := value.le_toInt
    have high := value.toInt_lt
    refine bind_eq_ok_iff.2 ⟨_, (reads _).2 ⟨spelled, by omega, by omega⟩, ?_⟩
    rw [Int32.ofInt_toInt]
    rfl

end RulesText.Format
