import Mathlib.Data.List.Basic
import Rulebook.Text.Utf8

/-!
Bytes are text just if they are the encoding of some text, which is then the one that is read.
-/

namespace Rulebook.Text

/-! First bytes -/

def secondLow (first : Nat) : UInt8 :=
  if first = 0xE0 then 0xA0 else if first = 0xF0 then 0x90 else 0x80

def secondHigh (first : Nat) : UInt8 :=
  if first = 0xED then 0x9F else if first = 0xF4 then 0x8F else 0xBF

/-- How a first byte leads others, by its length: how many bytes there are, the bits that it adds
itself, and the range of the second one. -/
def lead (first : Nat) : Option (Nat × Nat × UInt8 × UInt8) :=
  if first < 0x80 then some (0, first, 0x80, 0xBF)
  else if first < 0xC2 then none
  else if first < 0xE0 then some (1, first - 0xC0, secondLow first, secondHigh first)
  else if first < 0xF0 then some (2, first - 0xE0, secondLow first, secondHigh first)
  else if first < 0xF5 then some (3, first - 0xF0, secondLow first, secondHigh first)
  else none

theorem leading?_eq_lead (byte : UInt8) : leading? byte = lead byte.toNat := by
  have each : ∀ number : Fin 256, leading? (UInt8.ofNat number) = lead number := by decide +kernel
  have same := each ⟨byte.toNat, byte.toNat_lt⟩
  rwa [UInt8.ofNat_toNat] at same

/-- The range of a second byte keeps characters from being too long, surrogates, or too large. -/
theorem fitsSecond_iff {first : Nat} {next : UInt8} :
    secondLow first ≤ next ∧ next ≤ secondHigh first ↔
      0x80 ≤ next.toNat ∧ next.toNat ≤ 0xBF ∧ (first = 0xE0 → 0xA0 ≤ next.toNat) ∧
        (first = 0xF0 → 0x90 ≤ next.toNat) ∧ (first = 0xED → next.toNat ≤ 0x9F) ∧
        (first = 0xF4 → next.toNat ≤ 0x8F) := by
  simp only [secondLow, secondHigh, UInt8.le_iff_toNat_le]
  split_ifs <;> simp only [UInt8.reduceToNat] <;> omega

theorem fitsLater_iff {next : UInt8} :
    (0x80 : UInt8) ≤ next ∧ next ≤ (0xBF : UInt8) ↔ 0x80 ≤ next.toNat ∧ next.toNat ≤ 0xBF := by
  simp only [UInt8.le_iff_toNat_le, UInt8.reduceToNat]

/-! The bytes behind a first one -/

theorem following_zero (code : Nat) (low high : UInt8) (bytes : List UInt8) :
    following 0 code low high bytes = (some code, 0) := by
  cases bytes <;> rfl

theorem following_succ_iff {count code found used : Nat} {low high : UInt8} {bytes : List UInt8} :
    following (count + 1) code low high bytes = (some found, used) ↔
      ∃ next rest past, bytes = next :: rest ∧ used = past + 1 ∧ (low ≤ next ∧ next ≤ high) ∧
        following count (code * 64 + (next.toNat - 0x80)) 0x80 0xBF rest = (some found, past) := by
  constructor
  · intro read
    cases bytes with
    | nil => simp [following] at read
    | cons next rest =>
        by_cases fit : low ≤ next ∧ next ≤ high
        · rw [following, if_pos fit] at read
          injection read with same counted
          exact ⟨next, rest, _, rfl, counted.symm, fit, Prod.ext same rfl⟩
        · rw [following, if_neg fit] at read
          cases read
  · rintro ⟨next, rest, past, rfl, rfl, fit, follows⟩
    rw [following, if_pos fit]
    simp only [follows]

theorem firstChar_eq_some_iff {byte : UInt8} {rest : List UInt8} {character : Char} {used : Nat} :
    firstChar byte rest = (some character, used + 1) ↔
      ∃ count code low high found, lead byte.toNat = some (count, code, low, high) ∧
        following count code low high rest = (some found, used) ∧ Char.ofNat found = character := by
  rw [firstChar, leading?_eq_lead]
  cases lead byte.toNat with
  | none => simp
  | some leading =>
      obtain ⟨count, code, low, high⟩ := leading
      constructor
      · intro read
        cases follows : following count code low high rest with
        | mk found past =>
            simp only [follows] at read
            injection read with same counted
            cases counted
            obtain ⟨found, rfl, rfl⟩ := Option.map_eq_some_iff.mp same
            exact ⟨count, code, low, high, found, rfl, follows, rfl⟩
      · rintro ⟨_, _, _, _, found, ⟨⟩, follows, rfl⟩
        simp only [follows]
        rfl

theorem firstChar_used {byte : UInt8} {rest : List UInt8} {character : Option Char} {used : Nat}
    (read : firstChar byte rest = (character, used)) : ∃ past, used = past + 1 := by
  rw [firstChar] at read
  split at read
  · exact ⟨0, (Prod.mk.inj read).2.symm⟩
  · exact ⟨_, (Prod.mk.inj read).2.symm⟩

/-! Single characters -/

theorem encode_ofNat {number : Nat} (valid : number.isValidChar) :
    String.utf8EncodeChar (Char.ofNat number) =
      if number ≤ 0x7F then [UInt8.ofNat number]
      else if number ≤ 0x7FF then
        [UInt8.ofNat (number / 64 % 32 + 192), UInt8.ofNat (number % 64 + 128)]
      else if number ≤ 0xFFFF then
        [UInt8.ofNat (number / 4096 % 16 + 224), UInt8.ofNat (number / 64 % 64 + 128),
          UInt8.ofNat (number % 64 + 128)]
      else
        [UInt8.ofNat (number / 262144 % 8 + 240), UInt8.ofNat (number / 4096 % 64 + 128),
          UInt8.ofNat (number / 64 % 64 + 128), UInt8.ofNat (number % 64 + 128)] := by
  have same : (Char.ofNat number).val.toNat = number := by
    rw [Char.ofNat, dif_pos valid]
    rfl
  rw [String.utf8EncodeChar, same]

theorem ofNat_eq {number : Nat} (byte : UInt8) (same : number = byte.toNat) :
    UInt8.ofNat number = byte := by
  rw [same, UInt8.ofNat_toNat]

/-- What is read as a character, is its encoding. -/
theorem encode_of_firstChar {byte : UInt8} {rest : List UInt8} {character : Char} {used : Nat}
    (read : firstChar byte rest = (some character, used + 1)) :
    ∃ later behind, rest = later ++ behind ∧ used = later.length ∧
      String.utf8EncodeChar character = byte :: later := by
  obtain ⟨count, code, low, high, found, leads, follows, rfl⟩ := firstChar_eq_some_iff.mp read
  clear read
  unfold lead at leads
  split_ifs at leads with alone gap two three four
  all_goals simp only [Option.some.injEq, Prod.mk.injEq] at leads
  all_goals obtain ⟨rfl, rfl, rfl, rfl⟩ := leads
  · rw [following_zero, Prod.mk.injEq, Option.some.injEq] at follows
    obtain ⟨rfl, rfl⟩ := follows
    rw [encode_ofNat (.inl (by omega)), if_pos (by omega), UInt8.ofNat_toNat]
    exact ⟨[], rest, rfl, rfl, rfl⟩
  · obtain ⟨second, rest, past, rfl, rfl, fit, follows⟩ := following_succ_iff.mp follows
    rw [following_zero, Prod.mk.injEq, Option.some.injEq] at follows
    obtain ⟨rfl, rfl⟩ := follows
    rw [fitsSecond_iff] at fit
    rw [encode_ofNat (.inl (by omega)), if_neg (by omega), if_pos (by omega),
      ofNat_eq byte (by omega), ofNat_eq second (by omega)]
    exact ⟨[second], rest, rfl, rfl, rfl⟩
  · obtain ⟨second, rest, past, rfl, rfl, fit, follows⟩ := following_succ_iff.mp follows
    obtain ⟨third, rest, past, rfl, rfl, thirdFits, follows⟩ := following_succ_iff.mp follows
    rw [following_zero, Prod.mk.injEq, Option.some.injEq] at follows
    obtain ⟨rfl, rfl⟩ := follows
    rw [fitsSecond_iff] at fit
    rw [fitsLater_iff] at thirdFits
    rw [encode_ofNat (by unfold Nat.isValidChar; omega), if_neg (by omega), if_neg (by omega),
      if_pos (by omega), ofNat_eq byte (by omega), ofNat_eq second (by omega),
      ofNat_eq third (by omega)]
    exact ⟨[second, third], rest, rfl, rfl, rfl⟩
  · obtain ⟨second, rest, past, rfl, rfl, fit, follows⟩ := following_succ_iff.mp follows
    obtain ⟨third, rest, past, rfl, rfl, thirdFits, follows⟩ := following_succ_iff.mp follows
    obtain ⟨fourth, rest, past, rfl, rfl, fourthFits, follows⟩ := following_succ_iff.mp follows
    rw [following_zero, Prod.mk.injEq, Option.some.injEq] at follows
    obtain ⟨rfl, rfl⟩ := follows
    rw [fitsSecond_iff] at fit
    rw [fitsLater_iff] at thirdFits fourthFits
    rw [encode_ofNat (by unfold Nat.isValidChar; omega), if_neg (by omega), if_neg (by omega),
      if_neg (by omega), ofNat_eq byte (by omega), ofNat_eq second (by omega),
      ofNat_eq third (by omega), ofNat_eq fourth (by omega)]
    exact ⟨[second, third, fourth], rest, rfl, rfl, rfl⟩

theorem exists_byte (number : Nat) (small : number < 256) :
    ∃ byte : UInt8, UInt8.ofNat number = byte ∧ byte.toNat = number :=
  ⟨UInt8.ofNat number, rfl, UInt8.toNat_ofNat_of_lt' small⟩

/-- The encoding of a character is read as that character, whatever comes behind. -/
theorem firstChar_encode (character : Char) (rest : List UInt8) :
    ∃ byte later, String.utf8EncodeChar character = byte :: later ∧
      firstChar byte (later ++ rest) = (some character, later.length + 1) := by
  have valid : character.val.toNat.isValidChar := character.valid
  have same : Char.ofNat character.val.toNat = character := Char.ofNat_toNat character
  generalize character.val.toNat = number at valid same
  subst same
  have small := valid
  unfold Nat.isValidChar at small
  rw [encode_ofNat valid]
  split_ifs with alone two three
  · obtain ⟨first, isFirst, firstIs⟩ := exists_byte number (by omega)
    refine ⟨_, _, rfl, firstChar_eq_some_iff.mpr ?_⟩
    rw [isFirst, lead, if_pos (by omega), firstIs]
    exact ⟨_, _, _, _, _, rfl, following_zero _ _ _ _, rfl⟩
  · obtain ⟨first, isFirst, firstIs⟩ := exists_byte (number / 64 % 32 + 192) (by omega)
    obtain ⟨second, isSecond, secondIs⟩ := exists_byte (number % 64 + 128) (by omega)
    refine ⟨_, _, rfl, firstChar_eq_some_iff.mpr ?_⟩
    rw [isFirst, isSecond, lead, if_neg (by omega), if_neg (by omega), if_pos (by omega)]
    have whole : (first.toNat - 0xC0) * 64 + (second.toNat - 0x80) = number := by omega
    refine ⟨_, _, _, _, _, rfl, following_succ_iff.mpr ?_, congrArg Char.ofNat whole⟩
    exact ⟨second, rest, 0, rfl, rfl, fitsSecond_iff.mpr (by omega), following_zero _ _ _ _⟩
  · obtain ⟨first, isFirst, firstIs⟩ := exists_byte (number / 4096 % 16 + 224) (by omega)
    obtain ⟨second, isSecond, secondIs⟩ := exists_byte (number / 64 % 64 + 128) (by omega)
    obtain ⟨third, isThird, thirdIs⟩ := exists_byte (number % 64 + 128) (by omega)
    refine ⟨_, _, rfl, firstChar_eq_some_iff.mpr ?_⟩
    rw [isFirst, isSecond, isThird, lead, if_neg (by omega), if_neg (by omega), if_neg (by omega),
      if_pos (by omega)]
    have whole : ((first.toNat - 0xE0) * 64 + (second.toNat - 0x80)) * 64 + (third.toNat - 0x80) =
        number := by omega
    refine ⟨_, _, _, _, _, rfl, following_succ_iff.mpr ⟨second, third :: rest, 1, rfl, rfl,
      fitsSecond_iff.mpr (by omega), following_succ_iff.mpr ?_⟩, congrArg Char.ofNat whole⟩
    exact ⟨third, rest, 0, rfl, rfl, fitsLater_iff.mpr (by omega), following_zero _ _ _ _⟩
  · obtain ⟨first, isFirst, firstIs⟩ := exists_byte (number / 262144 % 8 + 240) (by omega)
    obtain ⟨second, isSecond, secondIs⟩ := exists_byte (number / 4096 % 64 + 128) (by omega)
    obtain ⟨third, isThird, thirdIs⟩ := exists_byte (number / 64 % 64 + 128) (by omega)
    obtain ⟨fourth, isFourth, fourthIs⟩ := exists_byte (number % 64 + 128) (by omega)
    refine ⟨_, _, rfl, firstChar_eq_some_iff.mpr ?_⟩
    rw [isFirst, isSecond, isThird, isFourth, lead, if_neg (by omega), if_neg (by omega),
      if_neg (by omega), if_neg (by omega), if_pos (by omega)]
    have whole : (((first.toNat - 0xF0) * 64 + (second.toNat - 0x80)) * 64 +
        (third.toNat - 0x80)) * 64 + (fourth.toNat - 0x80) = number := by omega
    refine ⟨_, _, _, _, _, rfl, following_succ_iff.mpr ⟨second, third :: fourth :: rest, 2, rfl,
      rfl, fitsSecond_iff.mpr (by omega), following_succ_iff.mpr ⟨third, fourth :: rest, 1, rfl,
      rfl, fitsLater_iff.mpr (by omega), following_succ_iff.mpr ?_⟩⟩, congrArg Char.ofNat whole⟩
    exact ⟨fourth, rest, 0, rfl, rfl, fitsLater_iff.mpr (by omega), following_zero _ _ _ _⟩

/-! Whole texts -/

theorem flatMap_encode_eq_nil {characters : List Char} :
    characters.flatMap String.utf8EncodeChar = [] ↔ [] = characters := by
  cases characters <;> simp

theorem strictChars?_cons_iff {fuel : Nat} {byte : UInt8} {rest : List UInt8}
    {characters : List Char} :
    strictChars? (fuel + 1) (byte :: rest) = some characters ↔
      ∃ character used others, firstChar byte rest = (some character, used + 1) ∧
        strictChars? fuel (rest.drop used) = some others ∧ character :: others = characters := by
  cases first : firstChar byte rest with
  | mk character used =>
      obtain ⟨past, rfl⟩ : ∃ past, used = past + 1 := firstChar_used first
      cases character <;> simp [strictChars?, first, Option.bind_eq_some_iff]

theorem strictChars?_eq_some_iff {fuel : Nat} {bytes : List UInt8} {characters : List Char}
    (enough : bytes.length ≤ fuel) :
    strictChars? fuel bytes = some characters ↔
      characters.flatMap String.utf8EncodeChar = bytes := by
  induction fuel generalizing bytes characters with
  | zero =>
      cases List.length_eq_zero_iff.mp (Nat.le_zero.mp enough)
      simpa [strictChars?] using flatMap_encode_eq_nil.symm
  | succ fuel ih =>
      cases bytes with
      | nil => simpa [strictChars?] using flatMap_encode_eq_nil.symm
      | cons byte rest =>
          rw [List.length_cons] at enough
          constructor
          · intro read
            obtain ⟨character, used, others, first, behind, rfl⟩ := strictChars?_cons_iff.mp read
            obtain ⟨later, further, rfl, rfl, encodes⟩ := encode_of_firstChar first
            rw [List.drop_left] at behind
            have shorter : further.length ≤ fuel := by
              rw [List.length_append] at enough
              omega
            rw [List.flatMap_cons, encodes, (ih shorter).mp behind]
            rfl
          · intro encoded
            cases characters with
            | nil => cases encoded
            | cons character others =>
                obtain ⟨first, later, encodes, reads⟩ := firstChar_encode character
                  (others.flatMap String.utf8EncodeChar)
                rw [List.flatMap_cons, encodes, List.cons_append, List.cons.injEq] at encoded
                obtain ⟨rfl, rfl⟩ := encoded
                have shorter : (others.flatMap String.utf8EncodeChar).length ≤ fuel := by
                  rw [List.length_append] at enough
                  omega
                refine strictChars?_cons_iff.mpr ⟨character, later.length, others, reads, ?_, rfl⟩
                rw [List.drop_left]
                exact (ih shorter).mpr rfl

/-- Bytes are read as the text whose encoding they are, and as none if there is no such text. -/
theorem ofBytes?_eq_some_iff {bytes : List UInt8} {text : String} :
    ofBytes? bytes = some text ↔ text.toUTF8.data.toList = bytes := by
  have encoded : text.toUTF8.data.toList = text.toList.flatMap String.utf8EncodeChar := by
    rw [String.toUTF8_eq_toByteArray, ← String.utf8Encode_toList]
    exact List.toList_data_toByteArray
  rw [encoded, ← strictChars?_eq_some_iff (Nat.le_refl bytes.length), ofBytes?,
    Option.map_eq_some_iff]
  constructor
  · rintro ⟨characters, read, rfl⟩
    rwa [String.toList_ofList]
  · intro read
    exact ⟨text.toList, read, String.ofList_toList⟩

theorem lossyChars_of_strictChars? {fuel : Nat} {bytes : List UInt8} {characters : List Char}
    (read : strictChars? fuel bytes = some characters) : lossyChars fuel bytes = characters := by
  induction fuel generalizing bytes characters with
  | zero =>
      obtain ⟨_, same⟩ := Option.ite_none_right_eq_some.mp read
      exact Option.some.inj same
  | succ fuel ih =>
      cases bytes with
      | nil => exact Option.some.inj read
      | cons byte rest =>
          obtain ⟨character, used, others, first, behind, rfl⟩ := strictChars?_cons_iff.mp read
          rw [lossyChars, first]
          exact congrArg (character :: ·) (ih behind)

/-- No character is replaced in bytes that are the encoding of a text. -/
theorem lossy_of_toUTF8 {bytes : List UInt8} {text : String}
    (encoded : text.toUTF8.data.toList = bytes) : lossy bytes = text := by
  obtain ⟨characters, read, rfl⟩ := Option.map_eq_some_iff.mp (ofBytes?_eq_some_iff.mpr encoded)
  rw [lossy, lossyChars_of_strictChars? read]

theorem lossy_eq_empty_iff {bytes : List UInt8} : lossy bytes = "" ↔ bytes = [] := by
  rw [lossy, ← String.toList_eq_nil_iff, String.toList_ofList]
  cases bytes <;> simp [lossyChars]

end Rulebook.Text
