import Rulebook.Json.Path
import Rulebook.Proofs.Text.Numeral

/-!
Where the path of a field leads. Each name of a path is a key if an object is met, and a number if
an array is met; anything else is in the way.
-/

namespace Rulebook.Json

/-! Names of a path -/

/-- Names without dots, at least one, that stand in a path with dots between them. -/
structure AreNames (names : List String) (path : String) : Prop where
  notEmpty : names ≠ []
  dotless : ∀ name ∈ names, '.' ∉ name.toList
  joined : ".".intercalate names = path

theorem splitDots_eq_splitOn (characters : List Char) :
    splitDots characters = characters.splitOn '.' := by
  induction characters with
  | nil => rfl
  | cons character rest ih =>
      rw [splitDots, List.splitOn_cons_eq_if_modifyHead, ih]
      by_cases dot : character = '.'
      · simp [dot]
      · rw [if_neg dot, if_neg (by simpa using dot)]
        obtain ⟨piece, pieces, split⟩ := List.exists_cons_of_ne_nil (List.splitOn_ne_nil '.' rest)
        rw [split]
        rfl

theorem steps_append (first second : String) :
    steps (first ++ "." ++ second) = steps first ++ steps second := by
  have characters : (first ++ "." ++ second).toList = first.toList ++ '.' :: second.toList := by
    simp
  rw [steps, characters, splitDots_eq_splitOn, List.splitOn_append_cons_self, List.map_append]
  simp only [steps, splitDots_eq_splitOn]

theorem AreNames.steps_eq {names : List String} {path : String} (are : AreNames names path) :
    steps path = names := by
  have dotless : ∀ piece ∈ names.map String.toList, '.' ∉ piece := by
    intro piece held
    obtain ⟨name, inNames, rfl⟩ := List.mem_map.mp held
    exact are.dotless name inNames
  rw [steps, ← are.joined, String.toList_intercalate, splitDots_eq_splitOn]
  change ((['.'].intercalate (names.map String.toList)).splitOn '.').map String.ofList = names
  rw [List.splitOn_intercalate '.' dotless (by simpa using are.notEmpty), List.map_map]
  simp [Function.comp_def]

theorem not_mem_of_mem_splitDots {characters piece : List Char}
    (held : piece ∈ splitDots characters) : '.' ∉ piece := by
  induction characters generalizing piece with
  | nil =>
      rw [splitDots, List.mem_singleton] at held
      simp [held]
  | cons character rest ih =>
      rw [splitDots] at held
      split at held
      · rcases List.mem_cons.mp held with rfl | later
        · exact List.not_mem_nil
        · exact ih later
      · next other =>
        split at held
        · simpa [List.mem_singleton.mp held] using Ne.symm other
        · next first pieces split =>
          rcases List.mem_cons.mp held with rfl | later
          · have rest := ih (split ▸ List.mem_cons_self)
            simpa [Ne.symm other] using rest
          · exact ih (split ▸ List.mem_cons_of_mem _ later)

theorem areNames_steps (path : String) : AreNames (steps path) path where
  notEmpty := by
    rw [steps, splitDots_eq_splitOn]
    simp
  dotless name held := by
    obtain ⟨piece, inPath, rfl⟩ := List.mem_map.mp held
    rw [String.toList_ofList]
    exact not_mem_of_mem_splitDots inPath
  joined := by
    rw [← String.toList_inj, String.toList_intercalate, steps, List.map_map, splitDots_eq_splitOn]
    simp only [Function.comp_def, String.toList_ofList, List.map_id']
    exact List.intercalate_splitOn '.'

/-! Steps -/

/-- What a name leads to: the value of a key, or the element of a number. -/
inductive Leads : Json → String → Json → Prop where
  | key {fields : List (String × Json)} {name : String} {child : Json}
      (found : fields.lookup name = some child) : Leads (.obj fields) name child
  | element {elements : List Json} {name : String} {index : Nat} {child : Json}
      (numeral : Text.IsNumeral name.toList index) (word : index < twoTo 64)
      (found : elements[index]? = some child) : Leads (.arr elements) name child

def IsScalar : Json → Prop
  | .obj _ | .arr _ => False
  | _ => True

/-- A name leads nowhere. -/
inductive Blocks : Json → String → Prop where
  | scalar {value : Json} {name : String} (scalar : value.IsScalar) : Blocks value name
  | missing {fields : List (String × Json)} {name : String}
      (absent : ∀ child, (name, child) ∉ fields) : Blocks (.obj fields) name
  | rejected {elements : List Json} {name : String}
      (noWord : ∀ index, Text.IsNumeral name.toList index → twoTo 64 ≤ index) :
      Blocks (.arr elements) name
  | beyond {elements : List Json} {name : String} {index : Nat}
      (numeral : Text.IsNumeral name.toList index) (past : elements.length ≤ index) :
      Blocks (.arr elements) name

inductive Follows : Json → List String → Json → Prop where
  | done {node : Json} : Follows node [] node
  | next {value child node : Json} {name : String} {names : List String}
      (leads : Leads value name child) (rest : Follows child names node) :
      Follows value (name :: names) node

theorem lookup_eq (name : String) (fields : List (String × Json)) :
    Json.lookup name fields = fields.lookup name := by
  induction fields with
  | nil => rfl
  | cons field rest ih =>
      obtain ⟨other, value⟩ := field
      rw [Json.lookup, List.lookup_cons, ih]
      by_cases same : other = name
      · simp [same]
      · rw [if_neg same, beq_eq_false_iff_ne.mpr (Ne.symm same)]

theorem step_eq_some_iff {value child : Json} {name : String} :
    value.step name = some child ↔ value.Leads name child := by
  constructor
  · intro stepped
    cases value with
    | obj fields => exact .key (lookup_eq name fields ▸ stepped)
    | arr elements =>
        obtain ⟨index, read, found⟩ := Option.bind_eq_some_iff.mp stepped
        obtain ⟨numeral, word⟩ := Text.unsigned?_eq_some_iff.mp read
        exact .element numeral word found
    | _ => cases stepped
  · rintro (found | ⟨numeral, word, found⟩)
    · rw [step, lookup_eq, found]
    · rw [step, Text.unsigned?_eq_some_iff.mpr ⟨numeral, word⟩, Option.bind_some, found]

theorem step_eq_none_iff {value : Json} {name : String} :
    value.step name = none ↔ value.Blocks name := by
  rw [Option.eq_none_iff_forall_ne_some]
  simp only [ne_eq, step_eq_some_iff]
  constructor
  · intro nowhere
    cases value with
    | obj fields =>
        refine .missing fun child held => ?_
        cases found : fields.lookup name with
        | none => simpa using List.lookup_eq_none_iff.mp found _ held
        | some other => exact nowhere other (.key found)
    | arr elements =>
        by_cases read : ∃ index, Text.IsNumeral name.toList index ∧ index < twoTo 64
        · obtain ⟨index, numeral, word⟩ := read
          refine .beyond numeral (Nat.le_of_not_lt fun inside => ?_)
          exact nowhere _ (.element numeral word (List.getElem?_eq_getElem inside))
        · refine .rejected fun index numeral => Nat.le_of_not_lt fun word => ?_
          exact read ⟨index, numeral, word⟩
    | _ => exact .scalar trivial
  · rintro (scalar | absent | noWord | ⟨numeral, past⟩) child leads
    · cases leads <;> exact scalar
    · obtain ⟨found⟩ := leads
      obtain ⟨before, after, rfl, _⟩ := List.lookup_eq_some_iff.mp found
      exact absent child (by simp)
    · obtain _ | ⟨numeral, word, _⟩ := leads
      exact absurd (noWord _ numeral) (Nat.not_le_of_lt word)
    · obtain _ | ⟨same, _, found⟩ := leads
      obtain rfl := numeral.unique same
      rw [List.getElem?_eq_none past] at found
      cases found

theorem walk_append (value : Json) (first second : List String) :
    value.walk (first ++ second) = (value.walk first).bind (·.walk second) := by
  induction first generalizing value with
  | nil => rfl
  | cons name names ih =>
      rw [List.cons_append, walk, walk, Option.bind_assoc]
      congr 1
      funext child
      exact ih child

theorem walk_eq_some_iff {value node : Json} {names : List String} :
    value.walk names = some node ↔ value.Follows names node := by
  induction names generalizing value with
  | nil =>
      rw [walk, Option.some.injEq]
      constructor
      · rintro rfl
        exact .done
      · rintro ⟨⟩
        rfl
  | cons name names ih =>
      rw [walk, Option.bind_eq_some_iff]
      constructor
      · rintro ⟨child, stepped, rest⟩
        exact .next (step_eq_some_iff.mp stepped) (ih.mp rest)
      · rintro (_ | ⟨leads, rest⟩)
        exact ⟨_, step_eq_some_iff.mpr leads, ih.mpr rest⟩

theorem walk_eq_none_iff {value : Json} {names : List String} :
    value.walk names = none ↔ ∃ before name after node, names = before ++ name :: after ∧
      value.Follows before node ∧ node.Blocks name := by
  constructor
  · intro lost
    induction names generalizing value with
    | nil => cases lost
    | cons name names ih =>
        rcases stepped : value.step name with _ | child
        · exact ⟨[], name, names, value, rfl, .done, step_eq_none_iff.mp stepped⟩
        · rw [walk, stepped, Option.bind_some] at lost
          obtain ⟨before, later, after, node, rfl, follows, blocks⟩ := ih lost
          exact ⟨name :: before, later, after, node, rfl,
            .next (step_eq_some_iff.mp stepped) follows, blocks⟩
  · rintro ⟨before, name, after, node, rfl, follows, blocks⟩
    rw [walk_append, walk_eq_some_iff.mpr follows, Option.bind_some, walk,
      step_eq_none_iff.mpr blocks, Option.bind_none]

theorem AreNames.find?_eq {names : List String} {path : String} (are : AreNames names path)
    (value : Json) : value.find? path = value.walk names := by
  rw [find?, are.steps_eq]

/-! Places in a value -/

/-- Where a part of a value is, among the fields of an object or the elements of an array. -/
inductive Segment where
  | key (name : String)
  | index (position : UInt64)

def Segment.text : Segment → String
  | .key name => name
  | .index position => toString position.toNat

/-- The part of a value that is reached segment by segment. -/
inductive Reaches : Json → List Segment → Json → Prop where
  | here {node : Json} : Reaches node [] node
  | key {fields : List (String × Json)} {name : String} {child node : Json} {route : List Segment}
      (found : fields.lookup name = some child) (rest : Reaches child route node) :
      Reaches (.obj fields) (.key name :: route) node
  | index {elements : List Json} {position : UInt64} {child node : Json} {route : List Segment}
      (found : elements[position.toNat]? = some child) (rest : Reaches child route node) :
      Reaches (.arr elements) (.index position :: route) node

theorem Reaches.follows {value node : Json} {route : List Segment}
    (reaches : value.Reaches route node) : value.Follows (route.map Segment.text) node := by
  induction reaches with
  | here => exact .done
  | key found _ ih => exact .next (.key found) ih
  | @index _ position _ _ _ found _ ih =>
      have word : position.toNat < twoTo 64 := position.toNat_lt
      exact .next (.element (.bare (Text.areDigits_toString _)) word found) ih

theorem Segment.dotless {segment : Segment}
    (plain : ∀ name, segment = .key name → '.' ∉ name.toList) : '.' ∉ segment.text.toList := by
  cases segment with
  | key name => exact plain name rfl
  | index position =>
      exact fun held => nomatch (Text.areDigits_toString position.toNat).digits '.' held

/-- Paths can be cut at any dot: what a path leads to is what its second half leads to from where
its first half leads. The keys and numbers on the way to a part of a value, with dots between them,
are a path to it; and a path leads nowhere if and only if one of its names does, from where those
before it lead. -/
theorem paths_compose (payload : Json) :
    (∀ first second : String, payload.find? (first ++ "." ++ second) =
      (payload.find? first).bind (·.find? second)) ∧
    (∀ route node, route ≠ [] → payload.Reaches route node →
      (∀ name, .key name ∈ route → '.' ∉ name.toList) →
      payload.find? (".".intercalate (route.map Segment.text)) = some node) ∧
    (∀ path, ∃ names, AreNames names path) ∧
    ∀ names path, AreNames names path →
      (∀ node, payload.find? path = some node ↔ payload.Follows names node) ∧
      (payload.find? path = none ↔ ∃ before name after node, names = before ++ name :: after ∧
        payload.Follows before node ∧ node.Blocks name) := by
  refine ⟨?_, ?_, fun path => ⟨steps path, areNames_steps path⟩, ?_⟩
  · intro first second
    rw [find?, steps_append, walk_append]
    rfl
  · intro route node some reaches plain
    have are : AreNames (route.map Segment.text) (".".intercalate (route.map Segment.text)) := by
      refine ⟨by simpa using some, fun name held => ?_, rfl⟩
      obtain ⟨segment, inRoute, rfl⟩ := List.mem_map.mp held
      exact Segment.dotless fun name same => plain name (same ▸ inRoute)
    rw [are.find?_eq, walk_eq_some_iff]
    exact reaches.follows
  · intro names path are
    rw [are.find?_eq]
    exact ⟨fun node => walk_eq_some_iff, walk_eq_none_iff⟩

def sensorPayload : Json :=
  .obj [("device", .obj [("2", .int 7), ("tags", .arr [.str "indoor", .str "lab"])])]

/-- A number is a key where an object is met, and leads past the end of the tags. -/
theorem sensorPayload_paths :
    sensorPayload.find? "device.2" = some (.int 7) ∧
      sensorPayload.find? "device.tags.1" = some (.str "lab") ∧
      sensorPayload.find? "device.tags.+01" = some (.str "lab") ∧
      sensorPayload.find? "device.tags.2" = none := by
  obtain ⟨_, parts, _, leads⟩ := paths_compose sensorPayload
  have signed : AreNames ["device", "tags", "+01"] "device.tags.+01" :=
    ⟨nofun, by decide, by decide⟩
  have past : AreNames ["device", "tags", "2"] "device.tags.2" := ⟨nofun, by decide, by decide⟩
  refine ⟨?_, ?_, ?_, ?_⟩
  · exact parts [.key "device", .key "2"] _ nofun (.key rfl (.key rfl .here)) (by simp)
  · exact parts [.key "device", .key "tags", .index 1] _ nofun
      (.key rfl (.key rfl (.index rfl .here))) (by simp)
  · refine ((leads _ _ signed).1 _).mpr (.next (.key rfl) (.next (.key rfl) (.next ?_ .done)))
    exact .element (.signed ⟨nofun, List.all_eq_true.mp rfl, rfl⟩) (by decide) rfl
  · refine (leads _ _ past).2.mpr ⟨["device", "tags"], "2", [], _, rfl,
      .next (.key rfl) (.next (.key rfl) .done), ?_⟩
    exact .beyond (.bare ⟨nofun, List.all_eq_true.mp rfl, rfl⟩) (by decide)

end Rulebook.Json
