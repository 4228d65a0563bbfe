/-
# EggLanguage.Proofs.Decoding -- the bytes that are texts

Bytes are a text exactly if they are its characters in UTF-8, one after the other
(`Utf8.decode_eq_ok_iff`).

Decoding stops between characters or in an open one.  An open character is completed by the bytes
that fit it, and by nothing else (`Utf8.decodeFrom_open`), and the bytes that a first byte and
those that fit it make up are the encoding of one character, of two, three or four bytes
(`Utf8.encodes_iff`).
-/
import EggLanguage.Text.Utf8

namespace EggLanguage.Text.Utf8

set_option autoImplicit false

/-! ## Open characters -/

namespace Open

/-- The bytes are those that the open character lacks. -/
def Fits : Open → List UInt8 → Prop
  | o, [] => o.owed = 0
  | o, byte :: rest =>
      o.owed ≠ 0 ∧ (o.low ≤ byte.toNat ∧ byte.toNat ≤ o.high) ∧ (o.extend byte.toNat).Fits rest

/-- The number of the character that the bytes complete. -/
def total (o : Open) (tail : List UInt8) : Nat :=
  tail.foldl (fun bits byte => bits * 0x40 + byte.toNat % 0x40) o.bits

theorem fits_of_done {o : Open} (done : o.owed = 0) {tail : List UInt8} :
    o.Fits tail ↔ tail = [] := by
  cases tail with
  | nil => simp [Fits, done]
  | cons byte rest => simp [Fits, done]

theorem fits_of_owed {o : Open} {n : Nat} (owed : o.owed = n + 1) {tail : List UInt8} :
    o.Fits tail ↔ ∃ byte rest, tail = byte :: rest ∧ (o.low ≤ byte.toNat ∧ byte.toNat ≤ o.high) ∧
      (o.extend byte.toNat).Fits rest := by
  cases tail with
  | nil => simp [Fits, owed]
  | cons byte rest =>
      constructor
      · rintro ⟨-, within, fits⟩
        exact ⟨byte, rest, rfl, within, fits⟩
      · rintro ⟨first, others, split, within, fits⟩
        obtain ⟨rfl, rfl⟩ := List.cons.inj split
        exact ⟨by omega, within, fits⟩

/-- One more byte of those that complete an open character. -/
theorem split_cons_iff {o : Open} (owed : o.owed ≠ 0) {byte : UInt8} {bytes : List UInt8}
    (within : o.low ≤ byte.toNat ∧ byte.toNat ≤ o.high) {goesOn : List UInt8 → List UInt8 → Prop} :
    (∃ tail rest, byte :: bytes = tail ++ rest ∧ o.Fits tail ∧ goesOn tail rest) ↔
      ∃ tail rest, bytes = tail ++ rest ∧ (o.extend byte.toNat).Fits tail ∧
        goesOn (byte :: tail) rest := by
  constructor
  · rintro ⟨tail, rest, split, fits, ok⟩
    cases tail with
    | nil => exact absurd fits owed
    | cons first tail =>
        obtain ⟨rfl, others⟩ := List.cons.inj split
        exact ⟨tail, rest, others, fits.2.2, ok⟩
  · rintro ⟨tail, rest, split, fits, ok⟩
    exact ⟨byte :: tail, rest, congrArg (byte :: ·) split, ⟨owed, within, fits⟩, ok⟩

end Open

/-- Decoding goes on behind the bytes that complete an open character. -/
theorem decodeFrom_open {bytes : List UInt8} :
    ∀ {done : List Char} {offset : Nat} {o : Open} {text : List Char}, o.owed ≠ 0 →
      (decodeFrom done offset (some o) bytes = .ok text ↔
        ∃ tail rest, bytes = tail ++ rest ∧ o.Fits tail ∧
          decodeFrom (Char.ofNat (o.total tail) :: done) (offset + tail.length) none rest =
            .ok text) := by
  induction bytes with
  | nil =>
      intro done offset o text owed
      constructor
      · intro decoded
        cases decoded
      · rintro ⟨tail, rest, split, fits, -⟩
        obtain ⟨rfl, rfl⟩ := List.nil_eq_append_iff.1 split
        exact absurd fits owed
  | cons byte bytes ih =>
      intro done offset o text owed
      rw [decodeFrom]
      dsimp only
      by_cases within : o.low ≤ byte.toNat ∧ byte.toNat ≤ o.high
      · rw [if_pos within, Open.split_cons_iff owed within]
        by_cases last : (o.extend byte.toNat).owed = 0
        · rw [if_pos last]
          simp only [Open.fits_of_done last]
          constructor
          · intro decoded
            exact ⟨[], bytes, rfl, rfl, decoded⟩
          · rintro ⟨tail, rest, rfl, rfl, decoded⟩
            exact decoded
        · rw [if_neg last, ih last]
          simp only [List.length_cons, Nat.add_assoc, Nat.add_comm 1]
          rfl
      · rw [if_neg within]
        constructor
        · intro decoded
          cases decoded
        · rintro ⟨tail, rest, split, fits, -⟩
          cases tail with
          | nil => exact absurd fits owed
          | cons first tail =>
              obtain ⟨rfl, -⟩ := List.cons.inj split
              exact absurd fits.2.1 within

/-! ## Characters -/

/-- A first byte says how many bytes follow.  Only for the lowest and the highest characters of a
length, and next to the surrogates, is the range of the second byte narrower. -/
theorem lead?_eq (b offset : Nat) :
    lead? b offset =
      if 0xC2 ≤ b ∧ b ≤ 0xDF then some ⟨b, offset, 1, 0x80, 0xBF, b - 0xC0⟩
      else if 0xE0 ≤ b ∧ b ≤ 0xEF then
        some ⟨b, offset, 2, if b = 0xE0 then 0xA0 else 0x80, if b = 0xED then 0x9F else 0xBF,
          b - 0xE0⟩
      else if 0xF0 ≤ b ∧ b ≤ 0xF4 then
        some ⟨b, offset, 3, if b = 0xF0 then 0x90 else 0x80, if b = 0xF4 then 0x8F else 0xBF,
          b - 0xF0⟩
      else none := by
  unfold lead?
  grind

section

variable {b : Nat} (offset : Nat)

theorem lead?_two (first : 0xC2 ≤ b ∧ b ≤ 0xDF) :
    lead? b offset = some ⟨b, offset, 1, 0x80, 0xBF, b - 0xC0⟩ := by
  rw [lead?_eq, if_pos first]

theorem lead?_three (first : 0xE0 ≤ b ∧ b ≤ 0xEF) :
    ∃ low high, lead? b offset = some ⟨b, offset, 2, low, high, b - 0xE0⟩ ∧
      (b = 0xE0 ∧ low = 0xA0 ∨ b ≠ 0xE0 ∧ low = 0x80) ∧
      (b = 0xED ∧ high = 0x9F ∨ b ≠ 0xED ∧ high = 0xBF) := by
  rw [lead?_eq, if_neg (by omega), if_pos first]
  exact ⟨_, _, rfl, by split <;> omega, by split <;> omega⟩

theorem lead?_four (first : 0xF0 ≤ b ∧ b ≤ 0xF4) :
    ∃ low high, lead? b offset = some ⟨b, offset, 3, low, high, b - 0xF0⟩ ∧
      (b = 0xF0 ∧ low = 0x90 ∨ b ≠ 0xF0 ∧ low = 0x80) ∧
      (b = 0xF4 ∧ high = 0x8F ∨ b ≠ 0xF4 ∧ high = 0xBF) := by
  rw [lead?_eq, if_neg (by omega), if_neg (by omega), if_pos first]
  exact ⟨_, _, rfl, by split <;> omega, by split <;> omega⟩

end

/-- The bytes of a character, as numbers. -/
theorem toNat_utf8EncodeChar (c : Char) :
    (String.utf8EncodeChar c).map UInt8.toNat =
      if c.toNat ≤ 0x7F then [c.toNat]
      else if c.toNat ≤ 0x7FF then [0xC0 + c.toNat / 0x40, 0x80 + c.toNat % 0x40]
      else if c.toNat ≤ 0xFFFF then
        [0xE0 + c.toNat / 0x1000, 0x80 + c.toNat / 0x40 % 0x40, 0x80 + c.toNat % 0x40]
      else
        [0xF0 + c.toNat / 0x40000, 0x80 + c.toNat / 0x1000 % 0x40, 0x80 + c.toNat / 0x40 % 0x40,
          0x80 + c.toNat % 0x40] := by
  have valid : c.toNat < 0xD800 ∨ (0xDFFF < c.toNat ∧ c.toNat < 0x110000) := c.valid
  have number : c.val.toNat = c.toNat := rfl
  unfold String.utf8EncodeChar
  rw [number]
  generalize c.toNat = v at *
  dsimp only
  split
  · simp; omega
  · split
    · simp; omega
    · split
      · simp; omega
      · simp; omega

/-- A character of several bytes is the one that its first byte opens and the others complete. -/
theorem opens_of_encoded {c : Char} {byte : UInt8} {tail : List UInt8} (offset : Nat)
    (long : 0x7F < c.toNat) (encoded : String.utf8EncodeChar c = byte :: tail) :
    ∃ o, lead? byte.toNat offset = some o ∧ o.Fits tail ∧ o.total tail = c.toNat := by
  have valid : c.toNat < 0xD800 ∨ (0xDFFF < c.toNat ∧ c.toNat < 0x110000) := c.valid
  have numbers := toNat_utf8EncodeChar c
  rw [encoded, if_neg (Nat.not_le.2 long)] at numbers
  generalize c.toNat = v at *
  split at numbers <;> (try split at numbers) <;>
    simp only [List.map_cons, List.cons.injEq, List.map_eq_cons_iff, List.map_eq_nil_iff] at numbers
  · obtain ⟨first, second, -, rfl, second_eq, rfl⟩ := numbers
    refine ⟨_, lead?_two offset (by omega), ?_, ?_⟩
    · simp [Open.Fits, Open.extend]; omega
    · simp [Open.total]; omega
  · obtain ⟨first, second, -, rfl, second_eq, third, -, rfl, third_eq, rfl⟩ := numbers
    obtain ⟨low, high, opened, atLow, atHigh⟩ := lead?_three (b := byte.toNat) offset (by omega)
    refine ⟨_, opened, ?_, ?_⟩
    · simp [Open.Fits, Open.extend]; omega
    · simp [Open.total]; omega
  · obtain ⟨first, second, -, rfl, second_eq, third, -, rfl, third_eq, fourth, -, rfl, fourth_eq,
      rfl⟩ := numbers
    obtain ⟨low, high, opened, atLow, atHigh⟩ := lead?_four (b := byte.toNat) offset (by omega)
    refine ⟨_, opened, ?_, ?_⟩
    · simp [Open.Fits, Open.extend]; omega
    · simp [Open.total]; omega

theorem utf8EncodeChar_ne_nil (c : Char) : String.utf8EncodeChar c ≠ [] := by
  intro none
  have size := String.length_utf8EncodeChar c
  rw [none] at size
  exact absurd c.utf8Size_pos (by rw [← size]; decide)

theorem toNat_ofNat {n : Nat} (valid : n.isValidChar) : (Char.ofNat n).toNat = n := by
  rw [Char.ofNat, dif_pos valid]
  rfl

/-- Bytes are the encoding of a character if they are so as numbers. -/
theorem encoded_of_toNat {n : Nat} (valid : n.isValidChar) {bytes : List UInt8}
    (numbers : bytes.map UInt8.toNat =
      if n ≤ 0x7F then [n]
      else if n ≤ 0x7FF then [0xC0 + n / 0x40, 0x80 + n % 0x40]
      else if n ≤ 0xFFFF then [0xE0 + n / 0x1000, 0x80 + n / 0x40 % 0x40, 0x80 + n % 0x40]
      else
        [0xF0 + n / 0x40000, 0x80 + n / 0x1000 % 0x40, 0x80 + n / 0x40 % 0x40, 0x80 + n % 0x40]) :
    String.utf8EncodeChar (Char.ofNat n) = bytes := by
  have encoded := toNat_utf8EncodeChar (Char.ofNat n)
  rw [toNat_ofNat valid, ← numbers] at encoded
  exact (List.map_inj_right fun _ _ => UInt8.toNat_inj.1).1 encoded

/-- The character that a first byte opens and others complete is encoded by these bytes. -/
theorem encoded_of_opens {byte : UInt8} {tail : List UInt8} {offset : Nat} {o : Open}
    (opened : lead? byte.toNat offset = some o) (fits : o.Fits tail) :
    String.utf8EncodeChar (Char.ofNat (o.total tail)) = byte :: tail := by
  by_cases two : 0xC2 ≤ byte.toNat ∧ byte.toNat ≤ 0xDF
  · obtain rfl := Option.some.inj (opened.symm.trans (lead?_two offset two))
    obtain ⟨second, others, rfl, within, fits⟩ := (Open.fits_of_owed rfl).1 fits
    obtain rfl := (Open.fits_of_done rfl).1 fits
    simp only [Open.total, List.foldl] at *
    refine encoded_of_toNat (by unfold Nat.isValidChar; omega) ?_
    rw [if_neg (by omega), if_pos (by omega)]
    simp; omega
  · by_cases three : 0xE0 ≤ byte.toNat ∧ byte.toNat ≤ 0xEF
    · obtain ⟨low, high, same, atLow, atHigh⟩ := lead?_three offset three
      obtain rfl := Option.some.inj (opened.symm.trans same)
      obtain ⟨second, others, rfl, within, fits⟩ := (Open.fits_of_owed rfl).1 fits
      obtain ⟨third, others, rfl, within', fits⟩ := (Open.fits_of_owed rfl).1 fits
      obtain rfl := (Open.fits_of_done rfl).1 fits
      simp only [Open.total, Open.extend, List.foldl] at *
      refine encoded_of_toNat (by unfold Nat.isValidChar; omega) ?_
      rw [if_neg (by omega), if_neg (by omega), if_pos (by omega)]
      simp; omega
    · have four : 0xF0 ≤ byte.toNat ∧ byte.toNat ≤ 0xF4 := by
        rw [lead?_eq, if_neg two, if_neg three] at opened
        exact Decidable.of_not_not fun none => by simp [none] at opened
      obtain ⟨low, high, same, atLow, atHigh⟩ := lead?_four offset four
      obtain rfl := Option.some.inj (opened.symm.trans same)
      obtain ⟨second, others, rfl, within, fits⟩ := (Open.fits_of_owed rfl).1 fits
      obtain ⟨third, others, rfl, within', fits⟩ := (Open.fits_of_owed rfl).1 fits
      obtain ⟨fourth, others, rfl, within'', fits⟩ := (Open.fits_of_owed rfl).1 fits
      obtain rfl := (Open.fits_of_done rfl).1 fits
      simp only [Open.total, Open.extend, List.foldl] at *
      refine encoded_of_toNat (by unfold Nat.isValidChar; omega) ?_
      rw [if_neg (by omega), if_neg (by omega), if_neg (by omega)]
      simp; omega

/-- A first byte below `0x80` is a character. -/
theorem encoded_of_short {byte : UInt8} (short : byte.toNat < 0x80) :
    String.utf8EncodeChar (Char.ofNat byte.toNat) = [byte] := by
  refine encoded_of_toNat (by unfold Nat.isValidChar; omega) ?_
  rw [if_pos (by omega)]
  rfl

/-- Characters of several bytes begin with bytes from `0xC2` on. -/
theorem long_of_lead? {b offset : Nat} {o : Open} (opened : lead? b offset = some o) :
    ¬ b < 0x80 ∧ o.owed ≠ 0 := by
  rw [lead?_eq] at opened
  grind

/-! ## Texts -/

/-- Between characters, decoding goes on behind the bytes of one character. -/
theorem decodeFrom_cons {done : List Char} {offset : Nat} {byte : UInt8} {bytes : List UInt8}
    {text : List Char} :
    decodeFrom done offset none (byte :: bytes) = .ok text ↔
      ∃ c tail rest, bytes = tail ++ rest ∧ String.utf8EncodeChar c = byte :: tail ∧
        decodeFrom (c :: done) (offset + 1 + tail.length) none rest = .ok text := by
  rw [decodeFrom]
  constructor
  · intro decoded
    split at decoded
    · rename_i short
      exact ⟨_, [], bytes, rfl, encoded_of_short short, decoded⟩
    · split at decoded
      · rename_i o opened
        obtain ⟨tail, rest, split, fits, decoded⟩ :=
          (decodeFrom_open (long_of_lead? opened).2).1 decoded
        exact ⟨_, tail, rest, split, encoded_of_opens opened fits, decoded⟩
      · cases decoded
  · rintro ⟨c, tail, rest, rfl, encoded, decoded⟩
    by_cases short : c.toNat ≤ 0x7F
    · have numbers := toNat_utf8EncodeChar c
      rw [encoded, if_pos short] at numbers
      obtain ⟨same, none⟩ := List.cons.inj numbers
      obtain rfl := List.map_eq_nil_iff.1 none
      rw [if_pos (by omega), same, Char.ofNat_toNat]
      exact decoded
    · obtain ⟨o, opened, fits, total⟩ := opens_of_encoded offset (Nat.not_le.1 short) encoded
      obtain ⟨long, owed⟩ := long_of_lead? opened
      rw [if_neg long, opened]
      refine (decodeFrom_open owed).2 ⟨tail, rest, rfl, fits, ?_⟩
      rw [total, Char.ofNat_toNat]
      exact decoded

/-- From between characters, bytes are decoded exactly if they are the encoding of a text. -/
theorem decodeFrom_none_iff {text : List Char} (bound : Nat) :
    ∀ {bytes : List UInt8} {done : List Char} {offset : Nat}, bytes.length < bound →
      (decodeFrom done offset none bytes = .ok text ↔
        ∃ chars, bytes = chars.flatMap String.utf8EncodeChar ∧ text = done.reverse ++ chars) := by
  induction bound with
  | zero => exact fun short => absurd short (Nat.not_lt_zero _)
  | succ bound ih =>
      intro bytes done offset short
      cases bytes with
      | nil =>
          simp only [decodeFrom, Except.ok.injEq]
          constructor
          · rintro rfl
            exact ⟨[], rfl, (List.append_nil _).symm⟩
          · rintro ⟨chars, none, rfl⟩
            cases chars with
            | nil => exact (List.append_nil _).symm
            | cons c chars =>
                rw [List.flatMap_cons] at none
                exact absurd (List.nil_eq_append_iff.1 none).1 (utf8EncodeChar_ne_nil c)
      | cons byte bytes =>
          rw [decodeFrom_cons]
          constructor
          · rintro ⟨c, tail, rest, rfl, encoded, decoded⟩
            rw [List.length_cons, List.length_append] at short
            obtain ⟨chars, rfl, rfl⟩ := (ih (by omega)).1 decoded
            exact ⟨c :: chars, by simp [encoded], by simp⟩
          · rintro ⟨chars, split, rfl⟩
            cases chars with
            | nil => cases split
            | cons c chars =>
                rw [List.flatMap_cons] at split
                cases encoded : String.utf8EncodeChar c with
                | nil => exact absurd encoded (utf8EncodeChar_ne_nil c)
                | cons first tail =>
                    rw [encoded, List.cons_append] at split
                    obtain ⟨rfl, rfl⟩ := List.cons.inj split
                    rw [List.length_cons, List.length_append] at short
                    exact ⟨c, tail, _, rfl, encoded, (ih (by omega)).2 ⟨chars, rfl, by simp⟩⟩

/-- **Bytes are a text exactly if they are its characters in UTF-8.** -/
theorem decode_eq_ok_iff {bytes : List UInt8} {text : List Char} :
    decode bytes = .ok text ↔ bytes = text.flatMap String.utf8EncodeChar := by
  rw [decode, decodeFrom_none_iff _ (Nat.lt_succ_self _)]
  simp

/-- The bytes that would encode a surrogate. -/
example : decode [0xED, 0xA0, 0x80] = .error ⟨0xED, 0, 1, .invalidContinuation⟩ := rfl

end EggLanguage.Text.Utf8
