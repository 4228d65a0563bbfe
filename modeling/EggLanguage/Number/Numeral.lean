/-
# EggLanguage.Number.Numeral -- whole numbers in decimal

The value of a run of decimal digits and the digits of a whole number, of any
size.  Numerals are converted in groups of `groupSize` digits, since only short
ones are converted in one step: a numeral is read from its most significant group
on, of which the last one may be short, and a number is taken apart from the least
significant group on, of which all but the top one are written with all their
digits.

The groups leave no trace: a numeral has the value of its digits (`ofDigits_eq`),
and the digits of a number are those of its top groups followed by those of its
lowest one (`digits_of_lt`, `digits_of_le`).  So writing and reading back gives the
same number (`ofDigits_digits`).
-/
namespace EggLanguage.Number

set_option autoImplicit false

/-- How many digits are converted in one step. -/
@[irreducible]
def groupSize : Nat := 1000

theorem groupSize_pos : 0 < groupSize := by
  unfold groupSize
  decide

/-- The numbers of at most that many digits are those below. -/
def radix : Nat := Nat.pow 10 groupSize

theorem one_lt_radix : 1 < radix :=
  Nat.one_lt_pow (Nat.ne_of_gt groupSize_pos) (by decide)

/-! ## Reading -/

/-- The number that a value followed by further digits denotes. -/
def ofGroups (value : Nat) (digits : List Char) : Nat :=
  if digits = [] then value
  else
    let group := digits.take groupSize
    ofGroups (value * Nat.pow 10 group.length + Nat.ofDigitChars 10 group 0) (digits.drop groupSize)
termination_by digits.length
decreasing_by
  have := List.length_pos_iff.2 ‹¬ digits = []›
  have := groupSize_pos
  rw [List.length_drop]
  omega

/-- The number that a run of decimal digits denotes, zero for no digits. -/
def ofDigits (digits : List Char) : Nat :=
  ofGroups 0 digits

theorem ofGroups_eq (value : Nat) (digits : List Char) :
    ofGroups value digits = value * Nat.pow 10 digits.length + Nat.ofDigitChars 10 digits 0 := by
  fun_induction ofGroups value digits with
  | case1 value => simp
  | case2 value digits some group ih =>
      have joined : group ++ digits.drop groupSize = digits := List.take_append_drop ..
      have power : Nat.pow 10 digits.length =
          Nat.pow 10 group.length * Nat.pow 10 (digits.drop groupSize).length := by
        rw [← joined, List.length_append, joined]
        exact Nat.pow_add ..
      have split : Nat.ofDigitChars 10 digits 0 =
          Nat.pow 10 (digits.drop groupSize).length * Nat.ofDigitChars 10 group 0 +
            Nat.ofDigitChars 10 (digits.drop groupSize) 0 := by
        rw [← joined, Nat.ofDigitChars_append, joined]
        exact Nat.ofDigitChars_eq_ofDigitChars_zero ..
      rw [ih, split, power]
      generalize Nat.pow 10 group.length = a
      generalize Nat.pow 10 (digits.drop groupSize).length = b
      rw [Nat.add_mul, Nat.mul_assoc, Nat.mul_comm b, Nat.add_assoc]

/-- A numeral has the value of its digits, however many there are. -/
theorem ofDigits_eq (digits : List Char) : ofDigits digits = Nat.ofDigitChars 10 digits 0 := by
  rw [ofDigits, ofGroups_eq, Nat.zero_mul, Nat.zero_add]

/-! ## Writing -/

/-- The groups of digits of a number, the least significant first. -/
def groups (n : Nat) : List Nat :=
  if n / radix = 0 then [n % radix]
  else n % radix :: groups (n / radix)
termination_by n
decreasing_by
  exact Nat.div_lt_self (Nat.pos_of_ne_zero fun zero => ‹¬ _› (by rw [zero, Nat.zero_div]))
    one_lt_radix

/-- A group below others is written with all its digits. -/
def padded (group : Nat) : List Char :=
  let digits := Nat.toDigits 10 group
  List.replicate (groupSize - digits.length) '0' ++ digits

/-- The digits of a number in groups, the most significant first. -/
def spellGroups : List Nat → List Char
  | [] => []
  | top :: rest => Nat.toDigits 10 top ++ rest.flatMap padded

/-- The decimal digits of a natural number, without leading zeros. -/
def digits (n : Nat) : List Char :=
  spellGroups (groups n).reverse

/-- A whole number in decimal, with a sign if it is negative. -/
def spellInt : Int → List Char
  | .ofNat n => digits n
  | .negSucc n => '-' :: digits (n + 1)

theorem groups_ne_nil (n : Nat) : groups n ≠ [] := by
  rw [groups]
  split <;> exact List.cons_ne_nil _ _

theorem spellGroups_append {top : List Nat} (some : top ≠ []) (group : Nat) :
    spellGroups (top ++ [group]) = spellGroups top ++ padded group := by
  obtain ⟨first, rest, rfl⟩ := List.exists_cons_of_ne_nil some
  simp [spellGroups]

theorem digits_of_lt {n : Nat} (small : n < radix) : digits n = Nat.toDigits 10 n := by
  rw [digits, groups, if_pos (Nat.div_eq_of_lt small), Nat.mod_eq_of_lt small]
  simp [spellGroups]

theorem digits_of_le {n : Nat} (large : radix ≤ n) :
    digits n = digits (n / radix) ++ padded (n % radix) := by
  have more : n / radix ≠ 0 :=
    Nat.ne_of_gt (Nat.div_pos large (Nat.lt_trans Nat.zero_lt_one one_lt_radix))
  rw [digits, groups, if_neg more, List.reverse_cons, spellGroups_append, digits]
  exact fun none => groups_ne_nil _ (List.reverse_eq_nil_iff.1 none)

/-- A property of numbers holds if it goes from the groups above the lowest to the whole. -/
theorem groups_induction {P : Nat → Prop} (small : ∀ n, n < radix → P n)
    (large : ∀ n, radix ≤ n → P (n / radix) → P n) (n : Nat) : P n := by
  fun_induction groups n with
  | case1 n single =>
      exact small n ((Nat.div_eq_zero_iff_lt (Nat.lt_trans Nat.zero_lt_one one_lt_radix)).1 single)
  | case2 n more ih =>
      exact large n (Nat.le_of_not_lt fun lt => more (Nat.div_eq_of_lt lt)) ih

theorem isDigit_of_mem_padded {group : Nat} {c : Char} (digit : c ∈ padded group) :
    c.isDigit = true := by
  obtain zero | digit := List.mem_append.1 digit
  · rw [(List.mem_replicate.1 zero).2]
    decide
  · exact Nat.isDigit_of_mem_toDigits (by decide) (by decide) digit

theorem length_padded {group : Nat} (fits : group < radix) :
    (padded group).length = groupSize := by
  have := (Nat.length_toDigits_le_iff (by decide) groupSize_pos).2 fits
  rw [padded, List.length_append, List.length_replicate]
  omega

theorem ofDigitChars_zeros (n : Nat) : Nat.ofDigitChars 10 (List.replicate n '0') 0 = 0 := by
  induction n with
  | zero => rfl
  | succ n ih =>
      rw [List.replicate_succ, Nat.ofDigitChars_cons]
      exact ih

theorem ofDigitChars_padded (group : Nat) : Nat.ofDigitChars 10 (padded group) 0 = group := by
  rw [padded, Nat.ofDigitChars_append, ofDigitChars_zeros]
  exact Nat.ofDigitChars_toDigits (by decide) (by decide)

theorem isDigit_of_mem_digits {n : Nat} {c : Char} (digit : c ∈ digits n) : c.isDigit = true := by
  induction n using groups_induction with
  | small n small =>
      rw [digits_of_lt small] at digit
      exact Nat.isDigit_of_mem_toDigits (by decide) (by decide) digit
  | large n large ih =>
      rw [digits_of_le large] at digit
      exact (List.mem_append.1 digit).elim ih isDigit_of_mem_padded

theorem digits_ne_nil (n : Nat) : digits n ≠ [] := by
  induction n using groups_induction with
  | small n small =>
      rw [digits_of_lt small]
      exact Nat.toDigits_ne_nil
  | large n large ih =>
      rw [digits_of_le large]
      exact List.append_ne_nil_of_left_ne_nil ih _

theorem ofDigits_digits (n : Nat) : ofDigits (digits n) = n := by
  rw [ofDigits_eq]
  induction n using groups_induction with
  | small n small =>
      rw [digits_of_lt small]
      exact Nat.ofDigitChars_toDigits (by decide) (by decide)
  | large n large ih =>
      have fits : n % radix < radix :=
        Nat.mod_lt _ (Nat.lt_trans Nat.zero_lt_one one_lt_radix)
      rw [digits_of_le large, Nat.ofDigitChars_append, Nat.ofDigitChars_eq_ofDigitChars_zero, ih,
        length_padded fits, ofDigitChars_padded]
      exact Nat.div_add_mod n radix

end EggLanguage.Number
