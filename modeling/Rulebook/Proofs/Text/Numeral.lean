import Rulebook.Text.Numeral

/-!
Which texts are numbers: decimal digits, at least one, of which leading zeros count for nothing. A
plus sign may stand in front of them.
-/

namespace Rulebook.Text

variable {characters : List Char} {text : String} {number soFar bits : Nat}

/-- Decimal digits of a number; zeros may lead. -/
structure AreDigits (characters : List Char) (number : Nat) : Prop where
  notEmpty : characters ≠ []
  digits : ∀ character ∈ characters, character.isDigit = true
  value : Nat.ofDigitChars 10 characters 0 = number

inductive IsNumeral : List Char → Nat → Prop where
  | bare {characters : List Char} {number : Nat} (digits : AreDigits characters number) :
      IsNumeral characters number
  | signed {characters : List Char} {number : Nat} (digits : AreDigits characters number) :
      IsNumeral ('+' :: characters) number

theorem digitsValue?_eq_some_iff :
    digitsValue? soFar characters = some number ↔
      (∀ character ∈ characters, character.isDigit = true) ∧
        Nat.ofDigitChars 10 characters soFar = number := by
  induction characters generalizing soFar with
  | nil => simp [digitsValue?]
  | cons character rest ih =>
      by_cases digit : character.isDigit = true
      · simp [digitsValue?, digitValue?, digit, ih, Nat.ofDigitChars_cons, Nat.mul_comm]
      · simp [digitsValue?, digitValue?, digit]

theorem natural?_eq_some_iff :
    natural? characters = some number ↔ AreDigits characters number := by
  rw [natural?]
  split
  · next empty =>
    have none : characters = [] := by simpa using empty
    exact ⟨nofun, fun digits => absurd none digits.notEmpty⟩
  · next more =>
    have some : characters ≠ [] := by simpa using more
    rw [digitsValue?_eq_some_iff]
    exact ⟨fun ⟨digits, value⟩ => ⟨some, digits, value⟩,
      fun digits => ⟨digits.digits, digits.value⟩⟩

theorem AreDigits.head_isDigit {first : Char} (digits : AreDigits (first :: characters) number) :
    first.isDigit = true :=
  digits.digits first List.mem_cons_self

/-- The digits, with or without a plus sign in front. -/
def behindPlus : List Char → List Char
  | '+' :: rest => rest
  | characters => characters

theorem behindPlus_of_ne {first : Char} {rest : List Char} (other : first ≠ '+') :
    behindPlus (first :: rest) = first :: rest := by
  unfold behindPlus
  split
  · next same => exact absurd (List.cons.inj same).1 other
  · rfl

theorem isNumeral_iff :
    IsNumeral characters number ↔ AreDigits (behindPlus characters) number := by
  rcases characters with _ | ⟨first, rest⟩
  · exact ⟨fun | .bare digits => digits, .bare⟩
  · by_cases plus : first = '+'
    · subst plus
      constructor
      · rintro (digits | digits)
        · exact nomatch digits.head_isDigit
        · exact digits
      · exact .signed
    · rw [behindPlus_of_ne plus]
      constructor
      · rintro (digits | digits)
        · exact digits
        · exact absurd rfl plus
      · exact .bare

theorem unsigned?_eq_some_iff :
    unsigned? bits text = some number ↔ IsNumeral text.toList number ∧ number < twoTo bits := by
  have read : unsigned? bits text = (natural? (behindPlus text.toList)).bind fun value =>
      if value < twoTo bits then some value else none := by
    unfold unsigned?
    dsimp only
    split
    · next value found =>
      change natural? (behindPlus text.toList) = some value at found
      rw [found, Option.bind_some]
    · next found =>
      change natural? (behindPlus text.toList) = none at found
      rw [found, Option.bind_none]
  simp only [read, Option.bind_eq_some_iff, Option.ite_none_right_eq_some, Option.some.injEq,
    isNumeral_iff, natural?_eq_some_iff]
  constructor
  · rintro ⟨value, digits, small, rfl⟩
    exact ⟨digits, small⟩
  · rintro ⟨digits, small⟩
    exact ⟨number, digits, small, rfl⟩

/-- The number of some digits behind a sign, if it fits. -/
def signedOf? (negative : Bool) (digits : List Char) : Option Int :=
  (natural? digits).bind fun value =>
    let number : Int := if negative then -(value : Int) else value
    if -(twoTo 63 : Int) ≤ number ∧ number < twoTo 63 then some number else none

def behindSign : List Char → List Char
  | '+' :: rest => rest
  | '-' :: rest => rest
  | characters => characters

theorem signed?_eq (text : String) : signed? 64 text =
    signedOf? (text.toList.head? == some '-') (behindSign text.toList) := by
  unfold signed? signedOf?
  dsimp only
  split
  · next value found =>
    change natural? (behindSign text.toList) = some value at found
    rw [found, Option.bind_some]
  · next found =>
    change natural? (behindSign text.toList) = none at found
    rw [found, Option.bind_none]

theorem behindSign_of_ne (other : characters.head? ≠ some '-') :
    behindSign characters = behindPlus characters := by
  unfold behindSign behindPlus
  split
  · rfl
  · exact absurd rfl other
  · next noPlus _ =>
    split
    · exact absurd rfl (noPlus _)
    · rfl

theorem signedOf?_true_eq (digits : List Char) (pos : 0 < number) :
    signedOf? true digits ≠ some (number : Int) := by
  simp only [signedOf?, if_true, ne_eq, Option.bind_eq_some_iff, Option.ite_none_right_eq_some,
    Option.some.injEq, not_exists, not_and]
  intro value _ _
  omega

theorem signedOf?_false_eq_some_iff {digits : List Char} :
    signedOf? false digits = some (number : Int) ↔
      AreDigits digits number ∧ number < twoTo 63 := by
  simp only [signedOf?, Bool.false_eq_true, if_false, Option.bind_eq_some_iff,
    Option.ite_none_right_eq_some, Option.some.injEq, natural?_eq_some_iff, Int.natCast_inj]
  constructor
  · rintro ⟨value, digits, ⟨_, small⟩, rfl⟩
    exact ⟨digits, by omega⟩
  · rintro ⟨digits, small⟩
    exact ⟨number, digits, ⟨by omega, by omega⟩, rfl⟩

/-- Above zero, a signed number is written like an unsigned one. -/
theorem signed?_eq_some_iff (pos : 0 < number) :
    signed? 64 text = some (number : Int) ↔
      IsNumeral text.toList number ∧ number < twoTo 63 := by
  rw [signed?_eq]
  by_cases minus : text.toList.head? = some '-'
  · obtain ⟨rest, begins⟩ := List.head?_eq_some_iff.mp minus
    rw [begins]
    constructor
    · exact fun found => absurd found (signedOf?_true_eq rest pos)
    · rintro ⟨digits | _, _⟩
      exact nomatch digits.head_isDigit
  · rw [beq_eq_false_iff_ne.mpr minus, behindSign_of_ne minus, isNumeral_iff]
    exact signedOf?_false_eq_some_iff

/-- The decimal form of a number denotes it. -/
theorem areDigits_toString (number : Nat) : AreDigits (toString number).toList number := by
  rw [Nat.toString_eq_ofList_toDigits, String.toList_ofList]
  exact ⟨Nat.toDigits_ne_nil,
    fun _ held => Nat.isDigit_of_mem_toDigits (by decide) (by decide) held,
    Nat.ofDigitChars_toDigits (by decide) (by decide)⟩

theorem IsNumeral.unique {other : Nat} (one : IsNumeral characters number)
    (another : IsNumeral characters other) : number = other := by
  rw [isNumeral_iff] at one another
  exact one.value.symm.trans another.value

end Rulebook.Text
