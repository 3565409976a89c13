import VisualNovel.Text.Integer

/-!
# Which words are integer literals

The rules for literals, apart from how they are read: a decimal number of one digit or
more, perhaps with a sign, within the range of its type. What is read is what the rules
allow (`index?_eq_some_iff`, `amount?_eq_some_iff`).
-/

namespace VisualNovel.Text

/-- A number in ASCII digits, the most significant first. -/
inductive Decimal : List Char → Nat → Prop
  | digit (h : value < 10) : Decimal [value.digitChar] value
  | snoc (h : Decimal digits tens) (hvalue : value < 10) :
      Decimal (digits ++ [value.digitChar]) (10 * tens + value)

inductive Unsigned : List Char → Nat → Prop
  | plain (h : Decimal digits value) : Unsigned digits value
  | plus (h : Decimal digits value) : Unsigned ('+' :: digits) value

inductive Signed : List Char → Int → Prop
  | unsigned (h : Unsigned cs value) : Signed cs value
  | minus (h : Decimal digits value) : Signed ('-' :: digits) (-value)

def IndexLiteral (word : String) (index : Nat) : Prop :=
  Unsigned word.toList index ∧ index < UInt64.size

def AmountLiteral (word : String) (amount : Int32) : Prop :=
  Signed word.toList amount.toInt

-- ---------------------------------------------------------------------------
-- Digits
-- ---------------------------------------------------------------------------

theorem digit?_digitChar : ∀ value < 10, digit? (Nat.digitChar value) = some value := by
  decide

theorem digit?_eq_some (h : digit? c = some value) : value < 10 ∧ c = value.digitChar := by
  unfold digit? at h
  split at h
  next hdigit =>
    have hlow : 48 ≤ c.toNat := hdigit.1
    have hhigh : c.toNat ≤ 57 := hdigit.2
    have hvalue : c.toNat = 48 + value := by
      have hsub : c.toNat - 48 = value := Option.some.inj h
      omega
    have hlt : value < 10 := by omega
    have hchars : ∀ value < 10, Char.ofNat (48 + value) = Nat.digitChar value := by decide
    exact ⟨hlt, by rw [← hchars value hlt, ← hvalue, Char.ofNat_toNat]⟩
  next => cases h

theorem Decimal.ne_nil (h : Decimal digits value) : digits ≠ [] := by
  cases h <;> simp

theorem digits?_of_ne_nil (h : cs ≠ []) : digits? cs = digitsFrom 0 cs := by
  cases cs with
  | nil => exact absurd rfl h
  | cons c cs => rfl

theorem digitsFrom_snoc (value : Nat) (cs : List Char) (c : Char) :
    digitsFrom value (cs ++ [c]) =
      (digitsFrom value cs).bind fun tens => (digit? c).map (10 * tens + ·) := by
  induction cs generalizing value with
  | nil => cases hdigit : digit? c <;> simp [digitsFrom, hdigit]
  | cons first cs ih => cases hdigit : digit? first <;> simp [digitsFrom, hdigit, ih]

theorem Decimal.digits? (h : Decimal digits value) : digits? digits = some value := by
  induction h with
  | @digit value hvalue => simp [Text.digits?, digitsFrom, digit?_digitChar value hvalue]
  | @snoc digits tens value hdigits hvalue ih =>
    rw [digits?_of_ne_nil hdigits.ne_nil] at ih
    rw [digits?_of_ne_nil (by simp), digitsFrom_snoc, ih, digit?_digitChar value hvalue]
    rfl

theorem decimal_of_digitsFrom (hread : Decimal digits tens) (h : digitsFrom tens cs = some value) :
    Decimal (digits ++ cs) value := by
  induction cs generalizing digits tens with
  | nil =>
    cases h
    simpa using hread
  | cons c cs ih =>
    obtain ⟨next, hnext, hrest⟩ := Option.bind_eq_some_iff.mp h
    obtain ⟨hlt, rfl⟩ := digit?_eq_some hnext
    simpa using ih (.snoc hread hlt) hrest

theorem digits?_eq_some_iff : digits? cs = some value ↔ Decimal cs value := by
  refine ⟨fun h => ?_, Decimal.digits?⟩
  cases cs with
  | nil => cases h
  | cons c cs =>
    obtain ⟨first, hfirst, hrest⟩ := Option.bind_eq_some_iff.mp h
    obtain ⟨hlt, rfl⟩ := digit?_eq_some hfirst
    rw [Nat.mul_zero, Nat.zero_add] at hrest
    exact decimal_of_digitsFrom (.digit hlt) hrest

-- ---------------------------------------------------------------------------
-- Signs
-- ---------------------------------------------------------------------------

theorem digits?_plus (cs : List Char) : digits? ('+' :: cs) = none := rfl

theorem digits?_minus (cs : List Char) : digits? ('-' :: cs) = none := rfl

theorem unsigned?_eq_some_iff : unsigned? cs = some value ↔ Unsigned cs value := by
  constructor
  · intro h
    unfold unsigned? at h
    split at h
    next => exact .plus (digits?_eq_some_iff.mp h)
    next => exact .plain (digits?_eq_some_iff.mp h)
  · rintro (h | h)
    · have hdigits := h.digits?
      unfold unsigned?
      split
      next => cases (digits?_plus _).symm.trans hdigits
      next => exact hdigits
    · exact h.digits?

theorem signed?_minus (digits : List Char) : signed? ('-' :: digits) =
    (digits? digits).map fun (magnitude : Nat) => -(magnitude : Int) := by
  cases hread : digits? digits <;> simp [signed?, hread]

theorem signed?_of_not_minus (h : ∀ digits, cs ≠ '-' :: digits) :
    signed? cs = (unsigned? cs).map Int.ofNat := by
  unfold signed?
  split
  next digits => exact absurd rfl (h digits)
  next => cases hread : unsigned? cs <;> simp

theorem signed?_eq_some_iff : signed? cs = some value ↔ Signed cs value := by
  constructor
  · intro h
    by_cases hminus : ∃ digits, cs = '-' :: digits
    · obtain ⟨digits, rfl⟩ := hminus
      rw [signed?_minus] at h
      obtain ⟨magnitude, hread, rfl⟩ := Option.map_eq_some_iff.mp h
      exact .minus (digits?_eq_some_iff.mp hread)
    · rw [signed?_of_not_minus (not_exists.mp hminus)] at h
      obtain ⟨magnitude, hread, rfl⟩ := Option.map_eq_some_iff.mp h
      exact .unsigned (unsigned?_eq_some_iff.mp hread)
  · rintro (h | h)
    · have hread := unsigned?_eq_some_iff.mpr h
      rw [signed?_of_not_minus, hread, Option.map_some, Int.ofNat_eq_natCast]
      rintro digits rfl
      cases (digits?_minus digits).symm.trans hread
    · rw [signed?_minus, h.digits?, Option.map_some]

-- ---------------------------------------------------------------------------
-- Ranges
-- ---------------------------------------------------------------------------

theorem le_maxIndex_iff : index ≤ maxIndex ↔ index < UInt64.size :=
  Nat.lt_succ_iff.symm

theorem index?_eq_some_iff : index? word = some index ↔ IndexLiteral word index := by
  rw [index?, Option.filter_eq_some_iff, unsigned?_eq_some_iff, decide_eq_true_iff,
    le_maxIndex_iff, IndexLiteral]

theorem index?_eq_none_iff : index? word = none ↔ ∀ index, ¬ IndexLiteral word index := by
  simp only [Option.eq_none_iff_forall_ne_some, ne_eq, index?_eq_some_iff]

theorem inInt32_toInt (amount : Int32) : inInt32 amount.toInt = true := by
  rw [inInt32, Bool.and_eq_true, decide_eq_true_iff, decide_eq_true_iff]
  exact ⟨Int32.minValue_le_toInt amount, Int32.toInt_le amount⟩

theorem toInt_ofInt_of_inInt32 (h : inInt32 n = true) : (Int32.ofInt n).toInt = n := by
  simp only [inInt32, Bool.and_eq_true, decide_eq_true_eq, Int32.toInt_minValue,
    Int32.toInt_maxValue] at h
  exact Int32.toInt_ofInt_of_le h.1 (Int.lt_of_le_sub_one h.2)

theorem amount?_eq_some_iff : amount? word = some amount ↔ AmountLiteral word amount := by
  rw [amount?, Option.map_eq_some_iff, AmountLiteral, ← signed?_eq_some_iff]
  simp only [Option.filter_eq_some_iff]
  constructor
  · rintro ⟨value, ⟨hread, hin⟩, rfl⟩
    rw [toInt_ofInt_of_inInt32 hin, hread]
  · exact fun hread => ⟨amount.toInt, ⟨hread, inInt32_toInt amount⟩, Int32.ofInt_toInt amount⟩

theorem amount?_eq_none_iff : amount? word = none ↔ ∀ amount, ¬ AmountLiteral word amount := by
  simp only [Option.eq_none_iff_forall_ne_some, ne_eq, amount?_eq_some_iff]

end VisualNovel.Text
