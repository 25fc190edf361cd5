import Rulebook.Analytics.TimeRange
import Rulebook.Proofs.Text.Blank
import Rulebook.Proofs.Text.Numeral
import Rulebook.Text.Utf8

/-!
How time ranges are written, and that nothing can go wrong while one is read: the text is never cut
inside of a character, and no number leaves its word.
-/

namespace Rulebook.TimeRange

/-- The letters of the units, and how many seconds each unit has. -/
inductive IsUnit : Char → Nat → Prop where
  | minute : IsUnit 'm' 60
  | hour : IsUnit 'h' 3600
  | day : IsUnit 'd' 86400

/-- A number above zero and the letter of a unit right behind it, not more than 366 days in all. -/
inductive IsSpan : List Char → Nat → Prop where
  | count {numeral : List Char} {letter : Char} {number unit : Nat}
      (numeral_is : Text.IsNumeral numeral number) (unit_is : IsUnit letter unit)
      (pos : 1 ≤ number) (word : number < twoTo 63) (bounded : number * unit ≤ 366 * 86400) :
      IsSpan (numeral ++ [letter]) (number * unit)

/-- What a text without blanks around it stands for. -/
inductive Denotes : String → TimeRange → Prop where
  | nothing : Denotes "" ⟨"24h", 86400⟩
  | oneDay : Denotes "1d" ⟨"24h", 86400⟩
  | span {text : String} {seconds : Nat} (other : text ≠ "1d")
      (isSpan : IsSpan text.toList seconds) : Denotes text ⟨text, seconds⟩

variable {text : String} {range : TimeRange} {seconds unit : Nat} {letter : Char}

theorem unit?_eq_some_iff : unit? letter = some unit ↔ IsUnit letter unit := by
  constructor
  · intro found
    unfold unit? at found
    split at found <;> cases found
    · exact .minute
    · exact .hour
    · exact .day
  · rintro (_ | _ | _) <;> rfl

theorem seconds?_eq_some_iff : seconds? text = some seconds ↔ IsSpan text.toList seconds := by
  simp only [seconds?, Option.bind_eq_bind, Option.bind_eq_some_iff,
    Option.ite_none_right_eq_some, Option.some.injEq]
  constructor
  · rintro ⟨letter, ends, unit, isUnit, count, read, ⟨pos, bounded⟩, rfl⟩
    obtain ⟨number, rfl⟩ := Int.eq_ofNat_of_zero_le (Int.le_of_lt pos)
    have above : 0 < number := by omega
    obtain ⟨numeral, word⟩ := (Text.signed?_eq_some_iff above).mp read
    have total : (number : Int) * unit = ((number * unit : Nat) : Int) := by simp
    rw [String.toList_ofList] at numeral
    rw [← List.dropLast_append_getLast? letter ends, total, Int.toNat_natCast]
    refine .count numeral (unit?_eq_some_iff.mp isUnit) above word ?_
    rw [total] at bounded
    exact Int.ofNat_le.mp bounded
  · intro isSpan
    generalize text.toList = characters at isSpan ⊢
    obtain @⟨written, letter, number, unit, numeral, isUnit, pos, word, bounded⟩ := isSpan
    have total : (number : Int) * unit = ((number * unit : Nat) : Int) := by simp
    refine ⟨letter, List.getLast?_concat, unit, unit?_eq_some_iff.mpr isUnit, number, ?_, ?_, ?_⟩
    · rw [List.dropLast_concat, Text.signed?_eq_some_iff pos, String.toList_ofList]
      exact ⟨numeral, word⟩
    · exact ⟨Int.natCast_pos.mpr pos, by rw [total]; exact Int.ofNat_le.mpr bounded⟩
    · rw [total, Int.toNat_natCast]

theorem denotes_iff (plain : ¬ (text = "" ∨ text = "24h" ∨ text = "1d")) :
    Denotes text range ↔ ∃ seconds, seconds? text = some seconds ∧ ⟨text, seconds⟩ = range := by
  constructor
  · rintro (_ | _ | ⟨_, isSpan⟩)
    · exact absurd (.inl rfl) plain
    · exact absurd (.inr (.inr rfl)) plain
    · exact ⟨_, seconds?_eq_some_iff.mpr isSpan, rfl⟩
  · rintro ⟨seconds, found, rfl⟩
    exact .span (fun same => plain (.inr (.inr same))) (seconds?_eq_some_iff.mp found)

/-- The three ways to write a day that have a label of their own. -/
theorem denotes_day_iff (day : text = "" ∨ text = "24h" ∨ text = "1d") :
    Denotes text range ↔ hours 24 = range := by
  constructor
  · rintro (_ | _ | ⟨other, isSpan⟩)
    · rfl
    · rfl
    · have found := seconds?_eq_some_iff.mpr isSpan
      rcases day with rfl | rfl | rfl
      · cases found
      · cases found
        rfl
      · exact absurd rfl other
  · rintro rfl
    rcases day with rfl | rfl | rfl
    · exact .nothing
    · exact .span (by decide) (seconds?_eq_some_iff.mp rfl)
    · exact .oneDay

theorem parse_eq_ok_iff : parse text = .ok range ↔ Denotes (Text.trim text) range := by
  rw [parse]
  split
  · next day => rw [denotes_day_iff day, Except.ok.injEq]
  · next plain =>
    rw [denotes_iff plain]
    cases seconds? (Text.trim text) <;> simp

theorem parse_eq_error {refusal : Refusal} (refused : parse text = .error refusal) :
    refusal = .invalid "time_range" ("无效的时间窗口: " ++ Text.trim text) := by
  rw [parse] at refused
  split at refused
  · cases refused
  · cases found : seconds? (Text.trim text) <;> rw [found] at refused <;> cases refused
    rfl

theorem parse_label (parsed : parse text = .ok range) : parse range.label = .ok range := by
  have denotes := parse_eq_ok_iff.mp parsed
  generalize same : Text.trim text = trimmed at denotes
  obtain _ | _ | ⟨other, isSpan⟩ := denotes
  · rfl
  · rfl
  · rw [parse_eq_ok_iff, ← same, Text.trim_trim, same]
    exact .span other isSpan

/-! Reading step by step, with what could break off -/

/-- The characters before a byte, and those from it on. There are none if the byte is inside of a
character or past the end. -/
def splitAtByte? : Nat → List Char → Option (List Char × List Char)
  | 0, characters => some ([], characters)
  | _ + 1, [] => none
  | bytes + 1, character :: rest =>
    if character.utf8Size ≤ bytes + 1 then
      (splitAtByte? (bytes + 1 - character.utf8Size) rest).map fun (before, behind) =>
        (character :: before, behind)
    else none

/-- So many units in seconds. The product has to fit into a signed word, and its milliseconds too. -/
def total? (count : Int) (unit : Nat) : Option Int :=
  let total := count * unit
  if -signedLimit ≤ total ∧ total < signedLimit ∧ total * 1000 < signedLimit then some total
  else none

def secondsOf? (digits unit : List Char) : Option Nat := do
  let count ← Text.signed? 64 (String.ofList digits)
  if count ≤ 0 then none
  else match unit with
    | [letter] =>
      let total ← total? count (← unit? letter)
      if total ≤ longest then some total.toNat else none
    | _ => none

/-- Reads a time range as it is done byte by byte; there is no answer if that breaks off. -/
def parseBytes? (text : String) : Option (Except Refusal TimeRange) :=
  let trimmed := Text.trim text
  let refusal : Refusal := .invalid "time_range" s!"无效的时间窗口: {trimmed}"
  if trimmed = "" ∨ trimmed = "24h" ∨ trimmed = "1d" then some (.ok (hours 24))
  else if trimmed = "1h" then some (.ok (hours 1))
  else if trimmed.toList.any (128 ≤ ·.toNat) then some (.error refusal)
  else
    (splitAtByte? (Text.byteSize trimmed.toList - 1) trimmed.toList).map fun (digits, unit) =>
      match secondsOf? digits unit with
      | some seconds => .ok ⟨trimmed, seconds⟩
      | none => .error refusal

theorem utf8Size_of_ascii {character : Char} (ascii : character.toNat < 128) :
    character.utf8Size = 1 := by
  rw [Char.utf8Size_eq_one_iff, UInt32.le_iff_toNat_le]
  exact Nat.le_of_lt_succ ascii

theorem byteSize_of_ascii {characters : List Char}
    (ascii : ∀ character ∈ characters, character.toNat < 128) :
    Text.byteSize characters = characters.length := by
  have counted (start : Nat) : characters.foldl
      (fun size character => size + character.utf8Size) start = start + characters.length := by
    induction characters generalizing start with
    | nil => rfl
    | cons character rest ih =>
        rw [List.foldl_cons, ih fun other held => ascii other (List.mem_cons_of_mem _ held),
          utf8Size_of_ascii (ascii character List.mem_cons_self), List.length_cons]
        omega
  simpa [Text.byteSize] using counted 0

theorem splitAtByte?_of_ascii {before : List Char} (behind : List Char)
    (ascii : ∀ character ∈ before, character.toNat < 128) :
    splitAtByte? before.length (before ++ behind) = some (before, behind) := by
  induction before with
  | nil => cases behind <;> rfl
  | cons character rest ih =>
      have size := utf8Size_of_ascii (ascii character List.mem_cons_self)
      rw [List.length_cons, List.cons_append, splitAtByte?, size, if_pos (by omega),
        Nat.add_sub_cancel, ih fun other held => ascii other (List.mem_cons_of_mem _ held)]
      rfl

theorem ascii_of_isDigit {character : Char} (digit : character.isDigit = true) :
    character.toNat < 128 := by
  simp only [Char.isDigit, Bool.and_eq_true, decide_eq_true_eq, UInt32.le_iff_toNat_le] at digit
  have high : character.toNat ≤ 57 := digit.2
  omega

theorem IsSpan.ascii {characters : List Char} (isSpan : IsSpan characters seconds) :
    ∀ character ∈ characters, character.toNat < 128 := by
  obtain ⟨numeral, isUnit, _, _, _⟩ := isSpan
  intro character held
  rcases List.mem_append.mp held with inNumeral | isLetter
  · obtain digits | digits := numeral
    · exact ascii_of_isDigit (digits.digits character inNumeral)
    · rcases List.mem_cons.mp inNumeral with rfl | inDigits
      · decide
      · exact ascii_of_isDigit (digits.digits character inDigits)
  · obtain rfl := List.mem_singleton.mp isLetter
    obtain _ | _ | _ := isUnit <;> decide

/-- A product that does not fit would be too long anyway. -/
theorem total?_bind {count : Int} (pos : 0 < count) (unit : Nat) :
    ((total? count unit).bind fun total => if total ≤ longest then some total.toNat else none) =
      if 0 < count ∧ count * unit ≤ longest then some (count * unit).toNat else none := by
  by_cases short : count * unit ≤ longest
  · have least : 0 ≤ count * unit := Int.mul_nonneg (Int.le_of_lt pos) (Int.natCast_nonneg unit)
    have limit : signedLimit = 9223372036854775808 := rfl
    have most : (longest : Int) = 31622400 := rfl
    rw [total?, if_pos (by omega), Option.bind_some, if_pos short, if_pos ⟨pos, short⟩]
  · rw [if_neg fun both => short both.2, Option.bind_eq_none_iff]
    intro total found
    obtain ⟨_, same⟩ := Option.ite_none_right_eq_some.mp found
    obtain rfl := Option.some.inj same
    exact if_neg short

theorem secondsOf?_eq {characters : List Char} (written : text.toList = characters ++ [letter]) :
    secondsOf? characters [letter] = seconds? text := by
  simp only [secondsOf?, seconds?, written, List.getLast?_concat, List.dropLast_concat,
    Option.bind_eq_bind, Option.bind_some]
  rcases Text.signed? 64 (String.ofList characters) with _ | count
  · cases unit? letter <;> rfl
  · simp only [Option.bind_some]
    rcases unit? letter with _ | unit
    · exact ite_self none
    · by_cases pos : 0 < count
      · rw [if_neg (by omega)]
        exact total?_bind pos unit
      · rw [if_pos (by omega)]
        exact (if_neg fun both => pos both.1).symm

/-- Nothing breaks off: what the bytes are read as is what the text is read as. -/
theorem parseBytes?_eq (text : String) : parseBytes? text = some (parse text) := by
  rw [parseBytes?, parse]
  generalize Text.trim text = trimmed
  dsimp only
  by_cases day : trimmed = "" ∨ trimmed = "24h" ∨ trimmed = "1d"
  · rw [if_pos day, if_pos day]
  rw [if_neg day, if_neg day]
  by_cases hour : trimmed = "1h"
  · subst hour
    rfl
  rw [if_neg hour]
  by_cases ascii : ∀ character ∈ trimmed.toList, character.toNat < 128
  · have plain : trimmed.toList.any (128 ≤ ·.toNat) = false := by simpa using ascii
    have some : trimmed.toList ≠ [] := fun none =>
      day (.inl (String.toList_eq_nil_iff.mp none))
    have written := List.dropLast_concat_getLast some
    generalize trimmed.toList.dropLast = before at written
    generalize trimmed.toList.getLast some = letter at written
    rw [plain, byteSize_of_ascii ascii, ← written, List.length_append, List.length_singleton,
      Nat.add_sub_cancel, splitAtByte?_of_ascii]
    · cases found : seconds? trimmed <;>
        simp only [Bool.false_eq_true, if_false, Option.map_some, secondsOf?_eq written.symm, found]
    · exact fun character held => ascii character (written ▸ List.mem_append_left _ held)
  · have foreign : trimmed.toList.any (128 ≤ ·.toNat) = true := by simpa using ascii
    rw [if_pos foreign]
    cases found : seconds? trimmed with
    | some seconds => exact absurd (seconds?_eq_some_iff.mp found).ascii ascii
    | none => rfl

/-- A text is read as a time range if and only if it is written like one, blanks around it aside;
reading never breaks off, and a text that is refused is named in the refusal. The label of a range
that was read stands for that range. -/
theorem ranges_denoted (text : String) :
    Text.IsTrimmed text.toList (Text.trim text).toList ∧
      (∀ range, parse text = .ok range ↔ Denotes (Text.trim text) range) ∧
      (∀ refusal, parse text = .error refusal ↔ (∀ range, ¬ Denotes (Text.trim text) range) ∧
        refusal = .invalid "time_range" ("无效的时间窗口: " ++ Text.trim text)) ∧
      (∀ range, parse text = .ok range → parse range.label = .ok range) ∧
      parseBytes? text = some (parse text) := by
  refine ⟨?_, fun range => parse_eq_ok_iff, ?_, fun range => parse_label, parseBytes?_eq text⟩
  · rw [Text.trim, String.toList_ofList]
    exact Text.trimChars_isTrimmed text.toList
  · intro refusal
    constructor
    · intro refused
      refine ⟨fun range denotes => ?_, parse_eq_error refused⟩
      rw [parse_eq_ok_iff.mpr denotes] at refused
      cases refused
    · rintro ⟨unreadable, rfl⟩
      rcases parsed : parse text with refusal | range
      · rw [parse_eq_error parsed]
      · exact absurd (parse_eq_ok_iff.mp parsed) (unreadable range)

/-- A week with a sign, a zero and blanks around it, which its label does without. -/
theorem spacedWeek_denoted :
    parse " +07d\t" = .ok ⟨"+07d", 604800⟩ ∧ parse "+07d" = .ok ⟨"+07d", 604800⟩ ∧
      parseBytes? " +07d\t" = some (.ok ⟨"+07d", 604800⟩) := by
  obtain ⟨_, denoted, _, again, inBytes⟩ := ranges_denoted " +07d\t"
  have trimmed : Text.trim " +07d\t" = "+07d" := by decide
  have isSpan : IsSpan (['+', '0', '7'] ++ ['d']) (7 * 86400) :=
    .count (.signed ⟨nofun, List.all_eq_true.mp rfl, rfl⟩) .day (by decide) (by decide) (by decide)
  have week : parse " +07d\t" = .ok ⟨"+07d", 604800⟩ := by
    rw [denoted, trimmed]
    exact .span (by decide) isSpan
  exact ⟨week, again ⟨"+07d", 604800⟩ week, week ▸ inBytes⟩

end Rulebook.TimeRange
