/-
# EggLanguage.Proofs.Numerals -- numerals of any length are exact

Numerals are read and written in groups of digits, from opposite ends.  Whatever the
number of digits, and wherever the groups end, a numeral is read as its positional value
(`positional`), and a number is written as the one numeral without leading zeros that has
its value (`IsCanonical`, `IsCanonical.eq_of_ofDigits_eq`).  Reading and writing undo each
other as far as leading zeros allow (`Number.conversion_exact`).
-/
import Mathlib.Data.List.Basic
import Mathlib.Data.List.Induction
import Mathlib.Data.Nat.Digits.Defs
import EggLanguage.Number.Numeral

namespace EggLanguage.Number

set_option autoImplicit false

/-! ## Positional value -/

/-- The number that one digit denotes. -/
def digitValue (c : Char) : Nat :=
  c.toNat - '0'.toNat

/-- The sum of the digits, each times the power of ten of the number of digits after it. -/
def positional (digits : List Char) : Nat :=
  Nat.ofDigits 10 (digits.reverse.map digitValue)

theorem ofDigits_eq_positional (digits : List Char) : ofDigits digits = positional digits := by
  rw [ofDigits_eq, positional, Nat.ofDigitChars_eq_foldl, List.foldl_eq_foldr_reverse,
    Nat.ofDigits_eq_foldr, List.foldr_map]
  congr 1
  funext c value
  exact Nat.add_comm _ _

theorem ofDigits_append (s t : List Char) :
    ofDigits (s ++ t) = ofDigits s * 10 ^ t.length + ofDigits t := by
  rw [ofDigits_eq, ofDigits_eq, ofDigits_eq, Nat.ofDigitChars_append,
    Nat.ofDigitChars_eq_ofDigitChars_zero, Nat.mul_comm]

theorem ofDigits_singleton (c : Char) : ofDigits [c] = digitValue c := by
  rw [ofDigits_eq, Nat.ofDigitChars_cons, Nat.ofDigitChars_nil, Nat.mul_zero, Nat.zero_add,
    digitValue]

/-- A zero before a numeral does not change its value. -/
theorem ofDigits_zero_cons (s : List Char) : ofDigits ('0' :: s) = ofDigits s := by
  have zero : ofDigits ['0'] = 0 := ofDigits_singleton '0'
  rw [← List.singleton_append, ofDigits_append, zero, Nat.zero_mul, Nat.zero_add]

/-! ## Canonical numerals -/

/-- The digits of a number as they are written: the first of several is not zero. -/
structure IsCanonical (digits : List Char) : Prop where
  nonempty : digits ≠ []
  digit : ∀ c ∈ digits, c.isDigit = true
  leading : digits.head? = some '0' → digits = ['0']

theorem toNat_of_isDigit {c : Char} (digit : c.isDigit = true) : 48 ≤ c.toNat ∧ c.toNat ≤ 57 := by
  simp only [Char.isDigit, Bool.and_eq_true, decide_eq_true_eq] at digit
  exact digit

theorem digitValue_lt {c : Char} (digit : c.isDigit = true) : digitValue c < 10 := by
  have bounds := toNat_of_isDigit digit
  rw [digitValue, show '0'.toNat = 48 from rfl]
  omega

theorem digitChar_digitValue {c : Char} (digit : c.isDigit = true) :
    Nat.digitChar (digitValue c) = c := by
  have bounds := toNat_of_isDigit digit
  refine Char.toNat_inj.1 ?_
  rw [Nat.toNat_digitChar_of_lt_ten (digitValue_lt digit), digitValue, show '0'.toNat = 48 from rfl]
  omega

/-- A canonical numeral is what is written for its value. -/
theorem IsCanonical.toDigits_ofDigits {s : List Char} (canonical : IsCanonical s) :
    Nat.toDigits 10 (ofDigits s) = s := by
  induction s using List.reverseRecOn with
  | nil => exact absurd rfl canonical.nonempty
  | append_singleton t c ih =>
      have digit : c.isDigit = true := canonical.digit c (by simp)
      have last : Nat.toDigits 10 (digitValue c) = [c] := by
        rw [Nat.toDigits_of_lt_base (digitValue_lt digit), digitChar_digitValue digit]
      by_cases single : t = []
      · rw [single, List.nil_append, ofDigits_singleton, last]
      · have leading : t.head? ≠ some '0' := by
          intro zero
          have whole := canonical.leading (by rw [List.head?_append_of_ne_nil t single, zero])
          cases t with
          | nil => exact single rfl
          | cons d t => simp at whole
        have written := ih ⟨single, fun d member => canonical.digit d (by simp [member]),
          fun zero => absurd zero leading⟩
        have positive : 0 < ofDigits t := by
          refine Nat.pos_of_ne_zero fun zero => leading ?_
          rw [← written, zero]
          rfl
        calc Nat.toDigits 10 (ofDigits (t ++ [c]))
          _ = Nat.toDigits 10 (10 * ofDigits t + digitValue c) := by
            rw [ofDigits_append, ofDigits_singleton, List.length_singleton, Nat.pow_one, Nat.mul_comm]
          _ = Nat.toDigits 10 (ofDigits t) ++ Nat.toDigits 10 (digitValue c) :=
            (Nat.toDigits_append_toDigits (by decide) positive (digitValue_lt digit)).symm
          _ = t ++ [c] := by rw [written, last]

/-- A number has one canonical numeral. -/
theorem IsCanonical.eq_of_ofDigits_eq {s t : List Char} (left : IsCanonical s)
    (right : IsCanonical t) (same : ofDigits s = ofDigits t) : s = t := by
  rw [← left.toDigits_ofDigits, same, right.toDigits_ofDigits]

/-! ## What is written -/

theorem eq_zero_of_head?_toDigits (n : Nat) (zero : (Nat.toDigits 10 n).head? = some '0') : n = 0 := by
  induction n using Nat.strongRecOn with
  | ind n ih =>
      rw [Nat.toDigits_eq_if (by decide)] at zero
      split at zero
      · rename_i small
        have value := congrArg Char.toNat (Option.some.inj zero)
        rw [Nat.toNat_digitChar_of_lt_ten small, show '0'.toNat = 48 from rfl] at value
        omega
      · rename_i large
        rw [List.head?_append_of_ne_nil _ Nat.toDigits_ne_nil] at zero
        have top := ih (n / 10) (by omega) zero
        omega

theorem eq_zero_of_head?_digits (n : Nat) (zero : (digits n).head? = some '0') : n = 0 := by
  induction n using groups_induction with
  | small n small =>
      rw [digits_of_lt small] at zero
      exact eq_zero_of_head?_toDigits n zero
  | large n large ih =>
      rw [digits_of_le large, List.head?_append_of_ne_nil _ (digits_ne_nil _)] at zero
      have top : 0 < n / radix :=
        Nat.div_pos large (Nat.lt_trans Nat.zero_lt_one one_lt_radix)
      exact absurd (ih zero) (Nat.ne_of_gt top)

theorem digits_zero : digits 0 = ['0'] := by
  rw [digits_of_lt (Nat.lt_trans Nat.zero_lt_one one_lt_radix)]
  rfl

theorem isCanonical_digits (n : Nat) : IsCanonical (digits n) where
  nonempty := digits_ne_nil n
  digit _ := isDigit_of_mem_digits
  leading zero := by rw [eq_zero_of_head?_digits n zero, digits_zero]

/-- A numeral without its leading zeros; the last digit stays. -/
def withoutLeadingZeros (s : List Char) : List Char :=
  if s.dropWhile (· == '0') = [] then ['0'] else s.dropWhile (· == '0')

theorem ofDigits_dropWhile (s : List Char) : ofDigits (s.dropWhile (· == '0')) = ofDigits s := by
  induction s with
  | nil => rfl
  | cons c s ih =>
      by_cases zero : c = '0'
      · subst zero
        rw [List.dropWhile_cons_of_pos (by rfl), ih, ofDigits_zero_cons]
      · rw [List.dropWhile_cons_of_neg (by simpa using zero)]

theorem ofDigits_withoutLeadingZeros (s : List Char) :
    ofDigits (withoutLeadingZeros s) = ofDigits s := by
  unfold withoutLeadingZeros
  split
  · rename_i none
    rw [← ofDigits_dropWhile s, none, ofDigits_zero_cons]
  · exact ofDigits_dropWhile s

theorem isCanonical_withoutLeadingZeros {s : List Char} (digit : ∀ c ∈ s, c.isDigit = true) :
    IsCanonical (withoutLeadingZeros s) := by
  unfold withoutLeadingZeros
  split
  · exact ⟨List.cons_ne_nil _ _, List.forall_mem_singleton.2 rfl, fun _ => rfl⟩
  · rename_i some
    refine ⟨some, fun c member => digit c ((List.dropWhile_sublist _).subset member), fun zero => ?_⟩
    have stopped := List.head?_dropWhile_not (· == '0') s
    rw [zero] at stopped
    cases stopped

/-- **Conversion in groups is exact.**  A numeral of any length has its positional value, so its
value comes from those of its two parts wherever it is cut.  A number is written as a canonical
numeral of its absolute value, after a sign exactly if it is negative.  So a natural number is
read back from what is written for it, a sign is all that tells the text of a number from that of
its negative, and reading a numeral and writing it again takes its leading zeros away. -/
theorem conversion_exact :
    (∀ s : List Char, (∀ c ∈ s, c.isDigit = true) → ofDigits s = positional s) ∧
    ofDigits [] = 0 ∧
    (∀ s t : List Char, ofDigits (s ++ t) = ofDigits s * 10 ^ t.length + ofDigits t) ∧
    (∀ n : Int, ∃ s, IsCanonical s ∧ positional s = n.natAbs ∧
      spellInt n = if n < 0 then '-' :: s else s) ∧
    (∀ n : Nat, ofDigits (spellInt n) = n) ∧
    (∀ n : Int, 0 < n → spellInt (-n) = '-' :: spellInt n) ∧
    (∀ s : List Char, (∀ c ∈ s, c.isDigit = true) →
      spellInt (ofDigits s) = withoutLeadingZeros s) := by
  refine ⟨fun s _ => ofDigits_eq_positional s, ofDigits_eq [], ofDigits_append, fun n => ?_,
    ofDigits_digits, fun n positive => ?_, fun s digit => ?_⟩
  · refine ⟨digits n.natAbs, isCanonical_digits _, ?_, ?_⟩
    · rw [← ofDigits_eq_positional, ofDigits_digits]
    · cases n with
      | ofNat n => exact (if_neg (Int.not_lt.2 (Int.natCast_nonneg n))).symm
      | negSucc n => exact (if_pos (Int.negSucc_lt_zero n)).symm
  · obtain ⟨k, rfl⟩ := Int.eq_succ_of_zero_lt positive
    rfl
  · have same : ofDigits (digits (ofDigits s)) = ofDigits (withoutLeadingZeros s) := by
      rw [ofDigits_digits, ofDigits_withoutLeadingZeros]
    exact (isCanonical_digits _).eq_of_ofDigits_eq (isCanonical_withoutLeadingZeros digit) same

/-- A numeral with a whole group of leading zeros. -/
theorem conversion_exact_zeros :
    (∀ c ∈ List.replicate groupSize '0' ++ ['4', '2'], c.isDigit = true) ∧
      ofDigits (List.replicate groupSize '0' ++ ['4', '2']) =
        positional (List.replicate groupSize '0' ++ ['4', '2']) ∧
      spellInt (ofDigits (List.replicate groupSize '0' ++ ['4', '2'])) = ['4', '2'] := by
  obtain ⟨value, -, -, -, -, -, again⟩ := conversion_exact
  have digit : ∀ c ∈ List.replicate groupSize '0' ++ ['4', '2'], c.isDigit = true := by
    intro c member
    obtain zero | last := List.mem_append.1 member
    · rw [(List.mem_replicate.1 zero).2]
      rfl
    · simp only [List.mem_cons, List.not_mem_nil, or_false] at last
      obtain rfl | rfl := last <;> rfl
  have stripped : withoutLeadingZeros (List.replicate groupSize '0' ++ ['4', '2']) = ['4', '2'] := by
    have zeros : ∀ c ∈ List.replicate groupSize '0', (c == '0') = true := fun c zero => by
      rw [(List.mem_replicate.1 zero).2]
      rfl
    rw [withoutLeadingZeros, List.dropWhile_append_of_pos zeros]
    rfl
  exact ⟨digit, value _ digit, (again _ digit).trans stripped⟩

end EggLanguage.Number
