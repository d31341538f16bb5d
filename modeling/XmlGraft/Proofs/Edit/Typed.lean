/-
  Typed — what becomes of a value that was typed as plain text.

  The value of an assignment is given a type and written back as text.  A text and a truth value
  come back as they were typed.  An integer comes back as the number it is: it can be typed with a
  plus sign, with leading zeros or as a negative zero, and none of that is remembered.

  1. **Numerals** (`Numeral`): the ways to type an integer, the number that each stands for and the
     plain one among them.  A redundant numeral is longer than the plain one (`length_plain_lt`),
     which is why it cannot come back as it was.

  2. **Digits** (`readDigits_zeros`, `exists_of_readDigits`): a run of digits is a number in decimal
     with zeros in front.  The digits are read from the front and a number is written from the back;
     `decimalDigits_append` is the bridge between the two.

  3. **Integers are the numerals** (`signed?_append`, `exists_of_signed?`), those of 64 bits the
     numerals that fit (`integer?_typed`, `exists_of_integer?`).  A number of more digits is no
     integer but a text, and comes back as it was, with its zeros.

  4. **Values of assignments** (`written_of_assignment?`): what is written for them is the value
     that was typed, but for redundant numerals that fit; for these it is the plain numeral.
-/
import XmlGraft.Edit.Assignment
import XmlGraft.Proofs.Text.Pieces

namespace XmlGraft

/-! ## Numerals -/

/-- **The sign** that an integer is typed with. -/
inductive Sign
  | bare
  | plus
  | minus
  deriving DecidableEq, Repr

/-- The sign as text. -/
def Sign.mark : Sign → Text
  | bare => []
  | plus => ['+']
  | minus => ['-']

/-- The number with the sign. -/
def Sign.apply : Sign → Nat → Int
  | minus, m => -(m : Int)
  | _, m => m

/-- **Numeral**: an integer as it can be typed. -/
structure Numeral where
  sign : Sign
  /-- How many zeros stand in front of the magnitude. -/
  zeros : Nat
  magnitude : Nat
  deriving DecidableEq, Repr

namespace Numeral

/-- The digits of a numeral. -/
def digits (n : Numeral) : Text :=
  List.replicate n.zeros '0' ++ Scalar.decimalDigits n.magnitude

/-- **The text** of a numeral. -/
def typed (n : Numeral) : Text := n.sign.mark ++ n.digits

/-- The number that a numeral stands for. -/
def value (n : Numeral) : Int := n.sign.apply n.magnitude

/-- **Fits**: the number is one of 64 bits. -/
def Fits (n : Numeral) : Prop :=
  -9223372036854775808 ≤ n.value ∧ n.value ≤ 9223372036854775807

/-- **Redundant**: typed with a plus sign, with leading zeros or as a negative zero. -/
def Redundant (n : Numeral) : Prop :=
  n.sign = .plus ∨ 0 < n.zeros ∨ n.sign = .minus ∧ n.magnitude = 0

/-- A plain numeral has no plus sign, no zeros in front and no minus sign before zero. -/
theorem not_redundant_iff {n : Numeral} :
    ¬ n.Redundant ↔ n.sign ≠ .plus ∧ n.zeros = 0 ∧ (n.sign = .minus → n.magnitude ≠ 0) := by
  simp [Redundant]

/-- **The plain numeral** of a number: only the minus sign of a negative number stands before its
    digits. -/
def plain (n : Numeral) : Numeral where
  sign := if n.sign = .minus ∧ n.magnitude ≠ 0 then .minus else .bare
  zeros := 0
  magnitude := n.magnitude

/-- The plain numeral stands for the same number. -/
@[simp] theorem value_plain (n : Numeral) : n.plain.value = n.value := by
  obtain ⟨sign, zeros, magnitude⟩ := n
  rcases Nat.eq_zero_or_pos magnitude with rfl | pos
  · cases sign <;> rfl
  · have some_digit : magnitude ≠ 0 := Nat.pos_iff_ne_zero.1 pos
    cases sign <;> simp [plain, value, Sign.apply, some_digit]

theorem plain_not_redundant (n : Numeral) : ¬ n.plain.Redundant := by
  rw [not_redundant_iff]
  by_cases negative : n.sign = .minus ∧ n.magnitude ≠ 0
  · exact ⟨by simp [plain, negative], rfl, fun _ => negative.2⟩
  · exact ⟨by simp [plain, negative], rfl, by simp [plain, negative]⟩

/-- A numeral that is not redundant is the plain one of its number. -/
theorem plain_of_not_redundant {n : Numeral} (h : ¬ n.Redundant) : n.plain = n := by
  obtain ⟨no_plus, no_zeros, not_zero⟩ := not_redundant_iff.1 h
  obtain ⟨sign, zeros, magnitude⟩ := n
  obtain rfl : zeros = 0 := no_zeros
  cases sign with
  | bare => rfl
  | plus => exact absurd rfl no_plus
  | minus => simp [plain, not_zero rfl]

/-- **A redundant numeral is longer** than the plain one, for it has a plus sign, a zero in front
    or a minus sign before zero, and the plain one has none of them.  So the two are different
    texts. -/
theorem length_plain_lt {n : Numeral} (h : n.Redundant) :
    n.plain.typed.length < n.typed.length := by
  obtain ⟨sign, zeros, magnitude⟩ := n
  simp only [typed, digits, plain, List.length_append, List.length_replicate]
  have short : Sign.bare.mark.length = 0 ∧ Sign.plus.mark.length = 1 ∧ Sign.minus.mark.length = 1 :=
    ⟨rfl, rfl, rfl⟩
  -- a sign or a zero is dropped, and nothing comes in its place
  rcases h with rfl | leading | ⟨rfl, rfl⟩
  · rw [if_neg (by simp)]
    omega
  · have : 0 < zeros := leading
    split
    · next negative =>
      rw [negative.1]
      omega
    · omega
  · rw [if_neg (by simp)]
    omega

/-- So what is typed redundantly and what is written for it are never the same text. -/
theorem plain_typed_ne {n : Numeral} (h : n.Redundant) : n.plain.typed ≠ n.typed := by
  intro same
  have := length_plain_lt h
  rw [same] at this
  omega

end Numeral

namespace Scalar

/-! ## Digits -/

/-- A run of digits stands for its number in base ten. -/
theorem readDigits_eq {t : Text} (h : ∀ c ∈ t, c.isDigit) (n : Nat) :
    readDigits n t = some (Nat.ofDigitChars 10 t n) := by
  induction t generalizing n with
  | nil => rfl
  | cons c t ih =>
    rw [readDigits, if_pos (h c List.mem_cons_self), ih (fun d mem => h d (List.mem_cons_of_mem _ mem)),
      Nat.ofDigitChars_cons, Nat.mul_comm]

/-- **Zeros in front do not count**, however many there are: read from zero on, each of them
    leaves the number at zero. -/
theorem readDigits_zeros (zeros m : Nat) :
    readDigits 0 (List.replicate zeros '0' ++ decimalDigits m) = some m := by
  have digits : ∀ c ∈ List.replicate zeros '0' ++ decimalDigits m, c.isDigit := by
    intro c mem
    rcases List.mem_append.1 mem with zero | digit
    · rw [List.eq_of_mem_replicate zero]
      rfl
    · exact Nat.isDigit_of_mem_toDigits (by omega) (by omega) digit
  rw [readDigits_eq digits, Nat.ofDigitChars_append, Nat.ofDigitChars_replicate_zero, Nat.mul_zero,
    decimalDigits, Nat.ofDigitChars_toDigits (by omega) (by omega)]

/-- A digit is its own decimal text. -/
theorem decimalDigits_digit {c : Char} (h : c.isDigit) :
    c.toNat - '0'.toNat < 10 ∧ decimalDigits (c.toNat - '0'.toNat) = [c] := by
  have bounds : 48 ≤ c.toNat ∧ c.toNat ≤ 57 := Char.isDigit_iff_toNat.1 h
  have below : c.toNat - '0'.toNat < 10 := by
    show c.toNat - 48 < 10
    omega
  refine ⟨below, ?_⟩
  have back : Nat.digitChar (c.toNat - '0'.toNat) = c := by
    rw [← Char.toNat_inj, Nat.toNat_digitChar_of_lt_ten below]
    show 48 + (c.toNat - 48) = c.toNat
    omega
  rw [decimalDigits, Nat.toDigits_of_lt_base below, back]

/-- **Reading on** from a number that is not zero writes the digits behind it.  From zero this
    fails, since zero has a digit of its own that the number after it does not keep. -/
theorem decimalDigits_append {n m : Nat} {t : Text} (pos : 0 < n) (h : readDigits n t = some m) :
    decimalDigits n ++ t = decimalDigits m := by
  induction t generalizing n with
  | nil =>
    cases h
    rw [List.append_nil]
  | cons c t ih =>
    rw [readDigits] at h
    split at h
    · next digit =>
      obtain ⟨below, single⟩ := decimalDigits_digit digit
      -- the number with one digit more is written with that digit more
      have next : decimalDigits (n * 10 + (c.toNat - '0'.toNat)) = decimalDigits n ++ [c] := by
        rw [← single, Nat.mul_comm]
        exact (Nat.toDigits_append_toDigits (by omega) pos below).symm
      rw [← ih (by omega) h, next, List.append_assoc, List.singleton_append]
    · cases h

/-- **A run of digits is a number in decimal with zeros in front.**  By the first digit: a zero is
    one of those in front, and behind any other digit the rest is read on from a number that is
    not zero. -/
theorem exists_of_readDigits {t : Text} {m : Nat} (some_digit : t ≠ []) (h : readDigits 0 t = some m) :
    ∃ zeros, t = List.replicate zeros '0' ++ decimalDigits m := by
  induction t with
  | nil => exact absurd rfl some_digit
  | cons c t ih =>
    rw [readDigits] at h
    split at h
    · next digit =>
      obtain ⟨below, single⟩ := decimalDigits_digit digit
      rw [Nat.zero_mul, Nat.zero_add] at h
      by_cases zero : c.toNat - '0'.toNat = 0
      · -- one more zero in front, unless it is the number itself
        rw [zero] at h single
        have here : c = '0' := (List.singleton_inj.1 single).symm
        by_cases last : t = []
        · subst last
          cases h
          exact ⟨0, single.symm⟩
        · obtain ⟨zeros, rest⟩ := ih last h
          exact ⟨zeros + 1, by rw [rest, here, List.replicate_succ, List.cons_append]⟩
      · exact ⟨0, by rw [← decimalDigits_append (by omega) h, single]; rfl⟩
    · cases h

/-! ## Integers -/

theorem natural?_digits (n : Numeral) : natural? n.digits = some n.magnitude := by
  have some_digit : n.digits.isEmpty = false := by
    rw [List.isEmpty_eq_false_iff, Numeral.digits]
    exact List.append_ne_nil_of_right_ne_nil _ Nat.toDigits_ne_nil
  rw [natural?, some_digit]
  exact readDigits_zeros n.zeros n.magnitude

theorem exists_of_natural? {t : Text} {m : Nat} (h : natural? t = some m) :
    ∃ zeros, t = List.replicate zeros '0' ++ decimalDigits m := by
  rw [natural?] at h
  split at h
  · cases h
  · next some_digit => exact exists_of_readDigits (fun empty => some_digit (by rw [empty]; rfl)) h

/-- An integer is a sign and a run of digits. -/
theorem signed?_eq (t : Text) :
    signed? t =
      match t with
      | '-' :: digits => (natural? digits).map Sign.minus.apply
      | '+' :: digits => (natural? digits).map Sign.plus.apply
      | digits => (natural? digits).map Sign.bare.apply := by
  have cast (f : Int → Int) (o : Option Nat) :
      (o >>= fun n => pure (n : Int)).map f = o.map fun n : Nat => f n := by cases o <;> rfl
  unfold signed?
  simp only [cast]
  rfl

/-- A sign before digits is read as a sign. -/
theorem signed?_append (sign : Sign) {digits : Text} {m : Nat} (h : natural? digits = some m) :
    signed? (sign.mark ++ digits) = some (sign.apply m) := by
  rw [signed?_eq]
  cases sign with
  | plus =>
    show (natural? digits).map _ = _
    rw [h]
    rfl
  | minus =>
    show (natural? digits).map _ = _
    rw [h]
    rfl
  | bare =>
    -- a sign does not begin a run of digits
    rw [Sign.mark, List.nil_append]
    split
    · cases h
    · cases h
    · rw [h]
      rfl

/-- What is read as an integer is a sign, or none, and digits. -/
theorem exists_of_signed? {t : Text} {i : Int} (h : signed? t = some i) :
    ∃ (sign : Sign) (digits : Text) (m : Nat),
      t = sign.mark ++ digits ∧ natural? digits = some m ∧ sign.apply m = i := by
  rw [signed?_eq] at h
  split at h
  · next digits =>
    obtain ⟨m, read, rfl⟩ := Option.map_eq_some_iff.1 h
    exact ⟨.minus, digits, m, rfl, read, rfl⟩
  · next digits =>
    obtain ⟨m, read, rfl⟩ := Option.map_eq_some_iff.1 h
    exact ⟨.plus, digits, m, rfl, read, rfl⟩
  · obtain ⟨m, read, rfl⟩ := Option.map_eq_some_iff.1 h
    exact ⟨.bare, t, m, rfl, read, rfl⟩

theorem fits_iff {i : Int} :
    fits i = true ↔ -9223372036854775808 ≤ i ∧ i ≤ 9223372036854775807 := by
  rw [fits, Bool.and_eq_true, decide_eq_true_iff, decide_eq_true_iff]
  rfl

/-- **A numeral that fits is read as an integer of 64 bits**, whichever sign and however many
    zeros it is typed with; what has to fit is the number and not the text. -/
theorem integer?_typed {n : Numeral} (h : n.Fits) : integer? n.typed = some (Int64.ofInt n.value) := by
  have read : signed? n.typed = some n.value := signed?_append n.sign (natural?_digits n)
  rw [integer?, read, Option.filter_some, if_pos (fits_iff.2 h)]
  rfl

/-- **Every integer of 64 bits is a numeral that fits**: a text that is read as one is a sign or
    none, then zeros, then the digits of a number within the bounds. -/
theorem exists_of_integer? {t : Text} {i : Int64} (h : integer? t = some i) :
    ∃ n : Numeral, n.Fits ∧ n.typed = t ∧ i = Int64.ofInt n.value := by
  obtain ⟨v, read, rfl⟩ := Option.map_eq_some_iff.1 h
  obtain ⟨read, fit⟩ := Option.filter_eq_some_iff.1 read
  obtain ⟨sign, digits, m, rfl, number, rfl⟩ := exists_of_signed? read
  obtain ⟨zeros, rfl⟩ := exists_of_natural? number
  exact ⟨⟨sign, zeros, m⟩, fits_iff.1 fit, rfl, rfl⟩

/-! ## Texts of values -/

/-- **An integer is written without redundance**: what is written for the number of a plain
    numeral is that numeral again, sign and digits. -/
theorem decimal_of_not_redundant {n : Numeral} (h : ¬ n.Redundant) : decimal n.value = n.typed := by
  obtain ⟨no_plus, no_zeros, not_zero⟩ := Numeral.not_redundant_iff.1 h
  obtain ⟨sign, zeros, magnitude⟩ := n
  obtain rfl : zeros = 0 := no_zeros
  cases sign with
  | plus => exact absurd rfl no_plus
  | bare =>
    show decimal (magnitude : Int) = decimalDigits magnitude
    rw [decimal, if_neg (by omega)]
    rfl
  | minus =>
    show decimal (-(magnitude : Int)) = '-' :: decimalDigits magnitude
    have some_digit : magnitude ≠ 0 := not_zero rfl
    rw [decimal, if_pos (by omega), Int.natAbs_neg]
    rfl

theorem decimal_value (n : Numeral) : decimal n.value = n.plain.typed := by
  rw [← n.value_plain]
  exact decimal_of_not_redundant n.plain_not_redundant

/-- A truth value in words is no integer. -/
theorem integer?_truthWord (b : Bool) : integer? (truthWord b) = none := by
  cases b <;> rfl

/-- **What is written for a text**: for one that stands for an integer of 64 bits, that integer in
    decimal; for any other one, truth values among them, the text itself. -/
theorem written?_ofText (t : Text) :
    (ofText t).written? = some ((integer? t).elim t fun i => decimal i.toInt) := by
  rw [ofText]
  split
  · next word => rw [word, integer?_truthWord]; rfl
  split
  · next word => rw [word, integer?_truthWord]; rfl
  cases integer? t with
  | none => rfl
  | some i => rfl

/-- **A numeral that fits is written as the plain one.**  The number is kept in 64 bits on the
    way, where it has room. -/
theorem written?_ofText_typed {n : Numeral} (h : n.Fits) :
    (ofText n.typed).written? = some n.plain.typed := by
  have kept : (Int64.ofInt n.value).toInt = n.value :=
    Int64.toInt_ofInt_of_le h.1 (Int.lt_of_le_of_lt h.2 (by decide))
  rw [written?_ofText, integer?_typed h, Option.elim_some, kept, decimal_value]

/-- **A text is written as it is** unless it is a redundant numeral that fits.  This covers texts
    that are no numerals, and numerals beyond 64 bits, which are kept as texts. -/
theorem written?_ofText_eq_iff (t : Text) :
    (ofText t).written? = some t ↔ ∀ n : Numeral, n.Fits → n.typed = t → ¬ n.Redundant := by
  constructor
  · rintro same n fit rfl redundant
    rw [written?_ofText_typed fit, Option.some_inj] at same
    exact Numeral.plain_typed_ne redundant same
  · intro plain
    cases read : integer? t with
    | none =>
      rw [written?_ofText, read]
      rfl
    | some i =>
      obtain ⟨n, fit, rfl, -⟩ := exists_of_integer? read
      rw [written?_ofText_typed fit, Numeral.plain_of_not_redundant (plain n fit rfl)]

end Scalar

/-! ## Values of assignments -/

namespace Fields

/-- **An assignment** is cut at its first equals sign.  What stands before it, without the spaces
    around it, is the key and may not be empty; what stands behind it is the value, further equals
    signs and spaces included. -/
theorem exists_of_assignment? {given key : Text} {s : Scalar} (h : assignment? given = .ok (key, s)) :
    ∃ front value : Text, given = front ++ '=' :: value ∧ '=' ∉ front ∧ key = Text.trim front ∧
      key ≠ [] ∧ s = .ofText value := by
  rw [assignment?] at h
  split at h
  · cases h
  · next front value cut =>
    split at h
    · cases h
    · next some_key =>
      cases h
      obtain ⟨rfl, first⟩ := Text.cut?_eq_some_iff.1 cut
      refine ⟨front, value, by rw [List.append_assoc, List.singleton_append], ?_, rfl, ?_, rfl⟩
      · -- the cut is at the first equals sign, so none stands before it
        intro mem
        obtain ⟨a, b, rfl⟩ := List.append_of_mem mem
        refine first a.length (by simp) ?_
        rw [List.append_assoc, List.drop_left]
        exact ⟨b ++ ['='], rfl⟩
      · intro empty
        exact some_key (by rw [empty]; rfl)

/-- **What is written for an assignment.**  The value is what is behind the first equals sign.  If it
    is a numeral of 64 bits, the same number is written without redundance; and it is exactly the
    value that is written unless it is such a numeral with a plus sign, with leading zeros or with a
    minus sign before zero. -/
theorem written_of_assignment? {given key : Text} {s : Scalar}
    (h : assignment? given = .ok (key, s)) :
    ∃ front value : Text, given = front ++ '=' :: value ∧ '=' ∉ front ∧ key = Text.trim front ∧
      key ≠ [] ∧
      (∀ n : Numeral, n.Fits → n.typed = value →
        ∃ p : Numeral, ¬ p.Redundant ∧ p.value = n.value ∧ s.written? = some p.typed) ∧
      (s.written? = some value ↔
        ∀ n : Numeral, n.Fits → n.typed = value → ¬ n.Redundant) := by
  obtain ⟨front, value, whole, first, trimmed, some_key, rfl⟩ := exists_of_assignment? h
  refine ⟨front, value, whole, first, trimmed, some_key, ?_, Scalar.written?_ofText_eq_iff value⟩
  rintro n fit rfl
  exact ⟨n.plain, n.plain_not_redundant, n.value_plain, Scalar.written?_ofText_typed fit⟩

/-- A port that is typed with a plus sign and a zero in front. -/
theorem written_of_assignment?_port :
    assignment? "port =+08080".toList = .ok ("port".toList, .integer 8080) ∧
    ∃ front value : Text, "port =+08080".toList = front ++ '=' :: value ∧ '=' ∉ front ∧
      "port".toList = Text.trim front ∧ "port".toList ≠ [] ∧
      (∀ n : Numeral, n.Fits → n.typed = value →
        ∃ p : Numeral, ¬ p.Redundant ∧ p.value = n.value ∧
          (Scalar.integer 8080).written? = some p.typed) ∧
      ((Scalar.integer 8080).written? = some value ↔
        ∀ n : Numeral, n.Fits → n.typed = value → ¬ n.Redundant) :=
  ⟨rfl, written_of_assignment? rfl⟩

/-- **Zeros in front are not written**: the value `007` is taken for the number seven, and the one
    digit is written. -/
theorem leadingZeros_not_written :
    assignment? "c=007".toList = .ok ("c".toList, .integer 7) ∧
    (Scalar.integer 7).written? = some "7".toList ∧
    (Scalar.integer 7).written? ≠ some "007".toList := by
  refine ⟨rfl, rfl, ?_⟩
  decide

end Fields

end XmlGraft
