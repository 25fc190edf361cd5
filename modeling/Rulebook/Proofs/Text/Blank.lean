import Mathlib.Data.List.DropRight
import Rulebook.Text.Blank

/-!
What trimming leaves: the text from its first to its last character that is not blank.
-/

namespace Rulebook.Text

variable {characters trimmed : List Char}

/-- What is left of a text without the blanks at both of its ends. -/
structure IsTrimmed (characters trimmed : List Char) : Prop where
  parts : ∃ before after, characters = before ++ trimmed ++ after ∧
    (∀ blank ∈ before, isBlank blank = true) ∧ ∀ blank ∈ after, isBlank blank = true
  first : ∀ character ∈ trimmed.head?, isBlank character = false
  last : ∀ character ∈ trimmed.getLast?, isBlank character = false

theorem trimChars_eq (characters : List Char) :
    trimChars characters = (characters.dropWhile isBlank).rdropWhile isBlank :=
  rfl

theorem trimChars_isTrimmed (characters : List Char) :
    IsTrimmed characters (trimChars characters) where
  parts := by
    have cut : trimChars characters ++ (characters.dropWhile isBlank).rtakeWhile isBlank =
        characters.dropWhile isBlank := by
      rw [trimChars_eq, List.rdropWhile, List.rtakeWhile, ← List.reverse_append,
        List.takeWhile_append_dropWhile, List.reverse_reverse]
    refine ⟨characters.takeWhile isBlank,
      (characters.dropWhile isBlank).rtakeWhile isBlank, ?_, ?_, ?_⟩
    · rw [List.append_assoc, cut, List.takeWhile_append_dropWhile]
    · exact fun _ => List.mem_takeWhile_imp
    · exact fun _ => List.mem_rtakeWhile_imp
  first character leads := by
    have before : trimChars characters <+: characters.dropWhile isBlank :=
      List.rdropWhile_prefix isBlank _
    obtain ⟨after, cut⟩ := before
    have inked := List.head?_dropWhile_not isBlank characters
    rw [← cut, List.head?_append, Option.mem_def.mp leads] at inked
    exact inked
  last character ends := by
    obtain ⟨some, rfl⟩ := List.mem_getLast?_eq_getLast ends
    exact Bool.eq_false_iff.mpr (List.rdropWhile_last_not isBlank _ some)

theorem IsTrimmed.trimChars_eq_self (isTrimmed : IsTrimmed characters trimmed) :
    trimChars trimmed = trimmed := by
  have start : trimmed.dropWhile isBlank = trimmed := by
    rw [List.dropWhile_eq_self_iff]
    intro some
    have inked := isTrimmed.first trimmed[0] (by rw [List.head?_eq_getElem?]; simp [some])
    simp [inked]
  rw [trimChars_eq, start, List.rdropWhile_eq_self_iff]
  intro some
  have inked := isTrimmed.last (trimmed.getLast some) (List.getLast?_eq_getLast_of_ne_nil some)
  simp [inked]

theorem trim_trim (text : String) : trim (trim text) = trim text := by
  rw [trim, trim, String.toList_ofList, (trimChars_isTrimmed text.toList).trimChars_eq_self]

end Rulebook.Text
