import Mathlib.Data.List.Dedup
import Mathlib.Data.String.Basic
import Mathlib.Logic.Function.Basic
import Rulebook.Proofs.Sandbox.Confinement
import Rulebook.Proofs.Script.Recording

/-!
The data that scripts leave for one another is one bounded map for each scope. All that is asked of
it, by whichever scripts and between them, is answered from what was stored before with success.
-/

namespace Rulebook

open Script (Fault Host HostCall Limits Problem Program Value)

/-! Fields in order -/

theorem Script.Value.getField_setField (name other : String) (value : Value)
    (fields : List (String × Value)) :
    getField other (setField name value fields) =
      if name = other then some value else getField other fields := by
  induction fields with
  | nil => rfl
  | cons field rest ih =>
      obtain ⟨first, old⟩ := field
      rw [setField]
      split
      next same =>
        subst same
        by_cases equal : name = other
        · simp [getField, equal]
        · simp [getField, equal]
      next different =>
        split
        · rfl
        · rw [getField, ih, getField]
          by_cases equal : first = other
          · subst equal
            simp [different]
          · simp [equal]

theorem Script.Value.mem_setField {name : String} {value : Value} {fields : List (String × Value)}
    {entry : String × Value} (held : entry ∈ setField name value fields) :
    entry = (name, value) ∨ entry ∈ fields := by
  induction fields with
  | nil => exact .inl (List.mem_singleton.mp held)
  | cons field rest ih =>
      obtain ⟨first, old⟩ := field
      rw [setField] at held
      split at held
      · rcases List.mem_cons.mp held with now | later
        · exact .inl now
        · exact .inr (List.mem_cons_of_mem _ later)
      · split at held
        · exact List.mem_cons.mp held
        · rcases List.mem_cons.mp held with now | later
          · exact .inr (now ▸ List.mem_cons_self)
          · exact (ih later).imp_right (List.mem_cons_of_mem _)

def Shelf.IsSorted (shelf : Shelf) : Prop :=
  shelf.Pairwise fun left right => left.1 < right.1

theorem Shelf.IsSorted.setField {shelf : Shelf} (sorted : shelf.IsSorted) (name : String)
    (value : Value) : Shelf.IsSorted (Value.setField name value shelf) := by
  induction shelf with
  | nil => exact List.pairwise_singleton ..
  | cons field rest ih =>
      obtain ⟨first, old⟩ := field
      obtain ⟨before, further⟩ := List.pairwise_cons.mp sorted
      rw [Value.setField]
      split
      next same =>
        exact List.pairwise_cons.mpr ⟨fun entry held => same ▸ before entry held, further⟩
      next different =>
        split
        next less =>
          refine List.pairwise_cons.mpr ⟨fun entry held => ?_, sorted⟩
          rcases List.mem_cons.mp held with rfl | later
          · exact less
          · exact less.trans (before entry later)
        next notLess =>
          refine List.pairwise_cons.mpr ⟨fun entry held => ?_, ih further⟩
          rcases Value.mem_setField held with rfl | later
          · exact lt_of_le_of_ne (not_lt.mp notLess) (Ne.symm different)
          · exact before entry later

theorem Shelf.get?_eq_none_iff {shelf : Shelf} {key : String} :
    shelf.get? key = none ↔ key ∉ shelf.map (·.1) := by
  rw [Shelf.get?]
  induction shelf with
  | nil => simp [Value.getField]
  | cons field rest ih =>
      obtain ⟨first, old⟩ := field
      rw [Value.getField]
      by_cases same : first = key
      · simp [same]
      · simp [same, Ne.symm same, ih]

/-! What was asked, and what follows from it -/

/-- What was asked of the data of a scope, and the answer. -/
inductive StoringEvent where
  /-- A script stored a value, with so many keys allowed. -/
  | stored (scope : DataScope) (limit : Nat) (key : String) (value : Value)
      (answer : Except Problem Value)
  | fetched (scope : DataScope) (key : String) (answer : Except Problem Value)
  /-- No script asked, but someone outside. -/
  | seen (scope : DataScope) (key : String) (answer : Option Value)

namespace StoringEvent

def gained? (scope : DataScope) : StoringEvent → Option (String × Value)
  | .stored other _ key value (.ok _) => if other = scope then some (key, value) else none
  | _ => none

/-- What a scope got, the latest first. -/
def entries (scope : DataScope) (events : List StoringEvent) : List (String × Value) :=
  events.filterMap (·.gained? scope)

def lastStored (scope : DataScope) (key : String) (events : List StoringEvent) : Option Value :=
  (entries scope events).lookup key

def keysHeld (scope : DataScope) (events : List StoringEvent) : List String :=
  ((entries scope events).map (·.1)).dedup

/-- Whether the answer is the one that follows from what was asked before. -/
def IsRight (past : List StoringEvent) : StoringEvent → Prop
  | .stored scope limit key _ answer =>
    answer =
      if key = "" then HostFunctions.raise StoringProblem.emptyKey.message
      else if 0 < limit ∧ limit ≤ (keysHeld scope past).length ∧ key ∉ keysHeld scope past then
        HostFunctions.raise (StoringProblem.tooManyKeys limit).message
      else .ok .unit
  | .fetched scope key answer => answer = .ok ((lastStored scope key past).getD .unit)
  | .seen scope key answer => answer = lastStored scope key past

/-- All answers are right, of which the latest is the first. -/
inductive AreRight : List StoringEvent → Prop where
  | start : AreRight []
  | next {past : List StoringEvent} {event : StoringEvent} :
      AreRight past → event.IsRight past → AreRight (event :: past)

variable {scope : DataScope} {limit : Nat} {key : String} {value : Value}
  {events past : List StoringEvent} {event : StoringEvent}

theorem mem_keysHeld_iff : key ∈ keysHeld scope events ↔ lastStored scope key events ≠ none := by
  rw [keysHeld, List.mem_dedup, lastStored, ne_eq, List.lookup_eq_none_iff]
  simp

theorem nodup_keysHeld : (keysHeld scope events).Nodup :=
  List.nodup_dedup _

theorem gained?_eq_some_iff : event.gained? scope = some (key, value) ↔
    ∃ limit done, event = .stored scope limit key value (.ok done) := by
  cases event with
  | stored other limit name stored answer =>
      cases answer with
      | error problem => simp [gained?]
      | ok done =>
          simp only [gained?, Option.ite_none_right_eq_some, Option.some.injEq, Prod.mk.injEq]
          constructor
          · rintro ⟨rfl, rfl, rfl⟩
            exact ⟨limit, done, rfl⟩
          · rintro ⟨_, _, ⟨⟩⟩
            exact ⟨rfl, rfl, rfl⟩
  | fetched _ _ _ => simp [gained?]
  | seen _ _ _ => simp [gained?]

theorem IsRight.key_ne {done : Value}
    (right : (StoringEvent.stored scope limit key value (.ok done)).IsRight past) : key ≠ "" := by
  intro blank
  rw [IsRight, if_pos blank] at right
  cases right

/-- What was stored with success was new only if there was room for it. -/
theorem IsRight.room {done : Value}
    (right : (StoringEvent.stored scope limit key value (.ok done)).IsRight past)
    (positive : 0 < limit) (new : key ∉ keysHeld scope past) :
    (keysHeld scope past).length < limit := by
  by_contra full
  have refused : 0 < limit ∧ limit ≤ (keysHeld scope past).length ∧ key ∉ keysHeld scope past :=
    ⟨positive, not_lt.mp full, new⟩
  rw [IsRight, if_pos refused] at right
  split at right <;> cases right

theorem keysHeld_cons_of_held (entry : event.gained? scope = some (key, value))
    (held : key ∈ keysHeld scope events) :
    keysHeld scope (event :: events) = keysHeld scope events := by
  have among : key ∈ (entries scope events).map (·.1) := List.mem_dedup.mp held
  simp only [keysHeld, entries, List.filterMap_cons, entry, List.map_cons]
  exact List.dedup_cons_of_mem among

theorem keysHeld_cons_of_new (entry : event.gained? scope = some (key, value))
    (new : key ∉ keysHeld scope events) :
    keysHeld scope (event :: events) = key :: keysHeld scope events := by
  have notAmong : key ∉ (entries scope events).map (·.1) := fun among =>
    new (List.mem_dedup.mpr among)
  simp only [keysHeld, entries, List.filterMap_cons, entry, List.map_cons]
  exact List.dedup_cons_of_notMem notAmong

theorem keysHeld_cons_of_none (nothing : event.gained? scope = none) :
    keysHeld scope (event :: events) = keysHeld scope events := by
  simp only [keysHeld, entries, List.filterMap_cons, nothing]

theorem AreRight.keysHeld_length_le (right : AreRight events) (positive : 0 < limit)
    (same : ∀ other key value answer,
      .stored scope other key value answer ∈ events → other = limit) :
    (keysHeld scope events).length ≤ limit := by
  induction right with
  | start => exact Nat.zero_le _
  | @next past event _ right ih =>
      have before := ih fun other key value answer held =>
        same other key value answer (List.mem_cons_of_mem _ held)
      cases entry : event.gained? scope with
      | none => rwa [keysHeld_cons_of_none entry]
      | some pair =>
          obtain ⟨key, value⟩ := pair
          by_cases held : key ∈ keysHeld scope past
          · rwa [keysHeld_cons_of_held entry held]
          · obtain ⟨other, done, rfl⟩ := gained?_eq_some_iff.mp entry
            obtain rfl := same other key value (.ok done) List.mem_cons_self
            rw [keysHeld_cons_of_new entry held, List.length_cons]
            exact right.room positive held

theorem AreRight.key_ne (right : AreRight events) (held : key ∈ keysHeld scope events) :
    key ≠ "" := by
  induction right with
  | start => cases held
  | @next past event _ right ih =>
      cases entry : event.gained? scope with
      | none =>
          rw [keysHeld_cons_of_none entry] at held
          exact ih held
      | some pair =>
          obtain ⟨other, value⟩ := pair
          by_cases before : other ∈ keysHeld scope past
          · rw [keysHeld_cons_of_held entry before] at held
            exact ih held
          · rw [keysHeld_cons_of_new entry before] at held
            rcases List.mem_cons.mp held with rfl | earlier
            · obtain ⟨limit, done, rfl⟩ := gained?_eq_some_iff.mp entry
              exact right.key_ne
            · exact ih earlier

theorem AreRight.earlier {later : List StoringEvent} (right : AreRight (later ++ events)) :
    AreRight events := by
  induction later with
  | nil => exact right
  | cons event rest ih =>
      cases right with
      | next right _ => exact ih right

end StoringEvent

open StoringEvent

/-! The shelves after what was asked -/

/-- The shelves are those that follow from what was asked, and all answers are right. -/
structure Reflects (events : List StoringEvent) (shelves : DataScope → Shelf) : Prop where
  right : AreRight events
  found : ∀ scope key, (shelves scope).get? key = lastStored scope key events
  sorted : ∀ scope, (shelves scope).IsSorted

namespace Reflects

variable {events : List StoringEvent} {shelves : DataScope → Shelf} {scope : DataScope}
  {key : String}

theorem mem_keysHeld_iff (reflects : Reflects events shelves) :
    key ∈ keysHeld scope events ↔ (shelves scope).get? key ≠ none := by
  rw [StoringEvent.mem_keysHeld_iff, reflects.found]

theorem length_eq (reflects : Reflects events shelves) (scope : DataScope) :
    (shelves scope).length = (keysHeld scope events).length := by
  have nodup : ((shelves scope).map (·.1)).Nodup :=
    List.pairwise_map.mpr ((reflects.sorted scope).imp fun less => ne_of_lt less)
  have same : ((shelves scope).map (·.1)).Perm (keysHeld scope events) := by
    rw [List.perm_ext_iff_of_nodup nodup nodup_keysHeld]
    intro key
    rw [reflects.mem_keysHeld_iff, ne_eq, Shelf.get?_eq_none_iff, not_not]
  simpa using same.length_eq

theorem start : Reflects [] fun _ => [] where
  right := .start
  found _ _ := rfl
  sorted _ := List.Pairwise.nil

theorem still (reflects : Reflects events shelves) {event : StoringEvent}
    (answer : event.IsRight events) (nothing : ∀ scope, event.gained? scope = none) :
    Reflects (event :: events) shelves where
  right := .next reflects.right answer
  found scope key := by
    rw [reflects.found, lastStored, lastStored, entries, entries, List.filterMap_cons, nothing]
  sorted := reflects.sorted

theorem stored (reflects : Reflects events shelves) {limit : Nat} {value : Value}
    (answer : (StoringEvent.stored scope limit key value (.ok .unit)).IsRight events) :
    Reflects (.stored scope limit key value (.ok .unit) :: events)
      (Function.update shelves scope (Value.setField key value (shelves scope))) where
  right := .next reflects.right answer
  found other name := by
    rw [lastStored, entries, List.filterMap_cons]
    by_cases same : scope = other
    · subst same
      simp only [Function.update_self, gained?, if_true, Shelf.get?, Value.getField_setField]
      by_cases equal : key = name
      · simp [equal]
      · have different : (name == key) = false := by simpa using Ne.symm equal
        rw [if_neg equal, List.lookup_cons, different]
        exact reflects.found scope name
    · rw [Function.update_of_ne (Ne.symm same), gained?, if_neg same]
      exact reflects.found other name
  sorted other := by
    by_cases same : other = scope
    · subst same
      rw [Function.update_self]
      exact (reflects.sorted other).setField key value
    · rw [Function.update_of_ne same]
      exact reflects.sorted other

theorem put (reflects : Reflects events shelves) {limit : Nat} {value : Value} {effects : Effects}
    (current : effects.shelf = shelves scope) :
    Reflects
      (.stored scope limit key value (HostFunctions.put limit key value effects).1 :: events)
      (Function.update shelves scope (HostFunctions.put limit key value effects).2.shelf) := by
  have unchanged : Function.update shelves scope effects.shelf = shelves := by
    rw [current, Function.update_eq_self]
  have full : (0 < limit ∧ limit ≤ (keysHeld scope events).length ∧ key ∉ keysHeld scope events) ↔
      0 < limit ∧ limit ≤ effects.shelf.length ∧ (effects.shelf.get? key).isNone := by
    rw [current, reflects.length_eq, reflects.mem_keysHeld_iff, not_not, Option.isNone_iff_eq_none]
  by_cases blank : key = ""
  · have made : effects.shelf.put limit key value = .error .emptyKey := by
      rw [Shelf.put, if_pos (by simp [blank])]
      rfl
    simp only [HostFunctions.put, made, unchanged]
    refine reflects.still ?_ fun _ => rfl
    rw [IsRight, if_pos blank]
  · have filled : ¬ key.isEmpty = true := by simpa using blank
    by_cases refused :
        0 < limit ∧ limit ≤ (keysHeld scope events).length ∧ key ∉ keysHeld scope events
    · have made : effects.shelf.put limit key value = .error (.tooManyKeys limit) := by
        rw [Shelf.put, if_neg filled, if_pos (full.mp refused)]
        rfl
      simp only [HostFunctions.put, made, unchanged]
      refine reflects.still ?_ fun _ => rfl
      rw [IsRight, if_neg blank, if_pos refused]
    · have made : effects.shelf.put limit key value =
          .ok (Value.setField key value (shelves scope)) := by
        rw [Shelf.put, if_neg filled, if_neg (mt full.mpr refused), current]
        rfl
      simp only [HostFunctions.put, made]
      refine reflects.stored ?_
      rw [IsRight, if_neg blank, if_neg refused]

end Reflects

/-! Scripts and others at the data -/

namespace StoringEvent

/-- What a call of a function of the host has to do with the data. -/
def ofCall (scope : DataScope) (limit : Nat) (call : HostCall) : Option StoringEvent :=
  match call.name, call.arguments with
  | "store_data", [.text key, value] => some (.stored scope limit key value call.answer)
  | "get_stored_data", [.text key] => some (.fetched scope key call.answer)
  | _, _ => none

theorem ofCall_limit {scope place : DataScope} {limit other : Nat} {call : HostCall} {key : String}
    {value : Value} {answer : Except Problem Value}
    (event : ofCall scope limit call = some (.stored place other key value answer)) :
    other = limit := by
  unfold ofCall at event
  split at event
  · cases event
    rfl
  · cases event
  · cases event

end StoringEvent

/-- Functions that scripts with effects can call were called, for any scopes and under any limits,
one after the other, and data was looked at in between. -/
inductive Served : List StoringEvent → (DataScope → Shelf) → Prop where
  | start : Served [] fun _ => []
  | call {events : List StoringEvent} {shelves : DataScope → Shelf} {now : Instant}
      {invocation : Invocation} {limits : Limits} {http : Option HttpAccess} {name : String}
      {arguments : List Value} {call : Effects → Except Problem Value × Effects}
      {effects : Effects} :
      Served events shelves →
      (HostFunctions.withEffects now invocation limits http).function? name arguments = some call →
      effects.shelf = shelves invocation.scope →
      Served ((StoringEvent.ofCall invocation.scope limits.mapSize
          ⟨name, arguments, (call effects).1⟩).toList ++ events)
        (Function.update shelves invocation.scope (call effects).2.shelf)
  | seen {events : List StoringEvent} {shelves : DataScope → Shelf} (scope : DataScope)
      (key : String) :
      Served events shelves → Served (.seen scope key ((shelves scope).get? key) :: events) shelves

section

variable {events : List StoringEvent} {shelves : DataScope → Shelf} {now : Instant}
  {invocation : Invocation} {limits : Limits} {http : Option HttpAccess} {name : String}
  {arguments : List Value} {call : Effects → Except Problem Value × Effects}

/-- What has nothing to do with the data leaves it alone. -/
theorem HostFunctions.withEffects_cases
    (found : (withEffects now invocation limits http).function? name arguments = some call) :
    (∃ key value, name = "store_data" ∧ arguments = [.text key, value] ∧
        call = put limits.mapSize key value) ∨
      (∃ key, name = "get_stored_data" ∧ arguments = [.text key] ∧
        call = fun effects => (.ok ((effects.shelf.get? key).getD .unit), effects)) ∨
      ((∀ scope limit answer, StoringEvent.ofCall scope limit ⟨name, arguments, answer⟩ = none) ∧
        ∀ effects, (call effects).2.shelf = effects.shelf) := by
  simp only [withEffects] at found
  cases told : clock? now name arguments with
  | some value =>
      simp only [told, Option.some.injEq] at found
      subst found
      refine .inr (.inr ⟨?_, fun _ => rfl⟩)
      unfold clock? at told
      split at told
      · exact fun _ _ _ => rfl
      · exact fun _ _ _ => rfl
      · exact fun _ _ _ => rfl
      · cases told
  | none =>
      simp only [told] at found
      unfold effect? at found
      split at found
      · cases found
        exact .inr (.inr ⟨fun _ _ _ => rfl, fun _ => rfl⟩)
      · cases found
        exact .inr (.inr ⟨fun _ _ _ => rfl, fun _ => rfl⟩)
      · cases found
        exact .inl ⟨_, _, rfl, rfl, rfl⟩
      · cases found
        exact .inr (.inl ⟨_, rfl, rfl, rfl⟩)
      -- only access to the network is left
      · rename_i notLogged notInfo notStore notGet
        refine .inr (.inr ⟨fun scope limit answer => ?_, ?_⟩)
        · unfold StoringEvent.ofCall
          split
          · rename_i key value sameName sameArguments
            exact (notStore key value sameName sameArguments).elim
          · rename_i key sameName sameArguments
            exact (notGet key sameName sameArguments).elim
          · rfl
        · split at found
          · cases found
            exact fun _ => rfl
          · cases found

theorem Served.reflects (served : Served events shelves) : Reflects events shelves := by
  induction served with
  | start => exact .start
  | seen scope key served ih => exact ih.still (ih.found scope key) fun _ => rfl
  | @call events shelves now invocation limits http name arguments call effects served found
      current ih =>
      rcases HostFunctions.withEffects_cases found with
        ⟨key, value, rfl, rfl, rfl⟩ | ⟨key, rfl, rfl, rfl⟩ | ⟨nothing, kept⟩
      · exact ih.put current
      · change Reflects (.fetched invocation.scope key (.ok ((effects.shelf.get? key).getD .unit))
          :: events) (Function.update shelves invocation.scope effects.shelf)
        rw [current, Function.update_eq_self]
        exact ih.still (by rw [IsRight, ih.found]) fun _ => rfl
      · rw [nothing, kept, current, Function.update_eq_self]
        exact ih

/-- Whatever a script calls, it is served one call after the other. -/
theorem Served.trail {calls : List HostCall} {start effects : Effects}
    (served : Served events shelves) (current : start.shelf = shelves invocation.scope)
    (trail : (HostFunctions.withEffects now invocation limits http).Trail start calls effects) :
    Served (calls.filterMap (StoringEvent.ofCall invocation.scope limits.mapSize) ++ events)
      (Function.update shelves invocation.scope effects.shelf) := by
  induction trail with
  | start =>
      rw [current, Function.update_eq_self]
      exact served
  | print text trail ih => exact ih
  | debug text trail ih => exact ih
  | @call calls state name arguments call trail found ih =>
      have between : state.shelf =
          Function.update shelves invocation.scope state.shelf invocation.scope := by
        rw [Function.update_self]
      have step := Served.call ih found between
      rw [Function.update_idem, ← List.append_assoc] at step
      rw [List.filterMap_cons]
      cases event : StoringEvent.ofCall invocation.scope limits.mapSize
          ⟨name, arguments, (call state).1⟩ with
      | none => simpa only [event, Option.toList_none, List.nil_append] using step
      | some event => simpa only [event, Option.toList_some, List.singleton_append] using step

end

namespace Sandbox

/-- What a script asks of its host when it runs, the latest call first. -/
def callsOf (now : Instant) (script : String) (context : ScriptContext) (limits : Limits)
    (sandbox : Sandbox) : List HostCall :=
  match (sandbox.compile script).1, context.capability with
  | .ok program, .effects =>
    let host := HostFunctions.withEffects now context.invocation limits sandbox.settings.http
    (program.run limits host.recorded (constantsOf context)
      (⟨[], sandbox.trace, sandbox.data.shelf context.invocation.scope⟩, [])).host.2
  | _, _ => []

def eventsOf (now : Instant) (script : String) (context : ScriptContext) (limits : Limits)
    (sandbox : Sandbox) : List StoringEvent :=
  (sandbox.callsOf now script context limits).filterMap
    (StoringEvent.ofCall context.invocation.scope limits.mapSize)

/-- Scripts ran in sandboxes that share their data, which was empty at first, and the data was
looked at in between. It does not matter what the scripts came to. -/
inductive Storing : List StoringEvent → Sandbox → Prop where
  | start {sandbox : Sandbox} : sandbox.data = {} → Storing [] sandbox
  | run {events : List StoringEvent} {sandbox : Sandbox} (now : Instant) (script : String)
      (context : ScriptContext) (limits : Limits) :
      Storing events sandbox →
        Storing (sandbox.eventsOf now script context limits ++ events)
          (sandbox.run now script context limits).2
  | seen {events : List StoringEvent} {sandbox : Sandbox} (scope : DataScope) (key : String) :
      Storing events sandbox →
        Storing (.seen scope key (sandbox.data.get? scope key) :: events) sandbox
  | elsewhere {events : List StoringEvent} {sandbox other : Sandbox} :
      Storing events sandbox → other.data = sandbox.data → Storing events other

theorem data_shelf_setShelf (store : DataStore) (scope : DataScope) (shelf : Shelf) :
    (store.setShelf scope shelf).shelf = Function.update store.shelf scope shelf := by
  funext other
  rw [DataStore.shelf_setShelf, Function.update_apply]
  simp only [eq_comm]

theorem served_run {events : List StoringEvent} {sandbox : Sandbox}
    (served : Served events sandbox.data.shelf) (now : Instant) (script : String)
    (context : ScriptContext) (limits : Limits) :
    Served (sandbox.eventsOf now script context limits ++ events)
      (sandbox.run now script context limits).2.data.shelf := by
  have kept : (sandbox.compile script).2.data = sandbox.data := by rw [compile_keeps]
  have settings : (sandbox.compile script).2.settings = sandbox.settings := by rw [compile_keeps]
  have trace : (sandbox.compile script).2.trace = sandbox.trace := by rw [compile_keeps]
  rw [run_eq, eventsOf, callsOf]
  cases (sandbox.compile script).1 with
  | error fault =>
      change Served ([] ++ events) (sandbox.compile script).2.data.shelf
      rwa [kept]
  | ok program =>
      simp only [runProgram]
      cases context.capability with
      | readOnly =>
          change Served ([] ++ events) (sandbox.compile script).2.data.shelf
          rwa [kept]
      | effects =>
          simp only [runWithEffects, kept, settings, trace, data_shelf_setShelf]
          obtain ⟨_, _, _, trail⟩ := program.run_recorded limits
            (HostFunctions.withEffects now context.invocation limits sandbox.settings.http)
            (constantsOf context)
            ⟨[], sandbox.trace, sandbox.data.shelf context.invocation.scope⟩
          exact served.trail rfl trail

theorem Storing.served {events : List StoringEvent} {sandbox : Sandbox}
    (storing : Storing events sandbox) : Served events sandbox.data.shelf := by
  induction storing with
  | start empty =>
      rw [empty]
      exact .start
  | run now script context limits _ ih => exact served_run ih now script context limits
  | seen scope key _ ih => exact ih.seen scope key
  | elsewhere _ same ih => rwa [same]

end Sandbox

/-- The data of scripts is one bounded map for each scope. However scripts and others came to it,
each answer is the one that follows from what was stored before with success, and so are the data. A
scope never has more keys than a limit that all scripts had, and what has been stored can be
stored anew. An answer is what the function has to say, before its value is measured by the limits
of the script: one that is too large ends the script, and leaves the data as they are. -/
theorem data_store_is_map :
    (∀ events sandbox, Sandbox.Storing events sandbox → Served events sandbox.data.shelf) ∧
      ∀ events shelves, Served events shelves →
        AreRight events ∧
        (∀ scope key, (shelves scope).get? key = lastStored scope key events) ∧
        (∀ scope, (shelves scope).length = (keysHeld scope events).length) ∧
        (∀ scope limit, 0 < limit →
          (∀ other key value answer, .stored scope other key value answer ∈ events →
            other = limit) →
          (shelves scope).length ≤ limit) ∧
        ∀ later past scope limit key value answer,
          events = later ++ .stored scope limit key value answer :: past →
          key ∈ keysHeld scope past → answer = .ok .unit := by
  refine ⟨fun events sandbox storing => storing.served, fun events shelves served => ?_⟩
  have reflects := served.reflects
  refine ⟨reflects.right, reflects.found, reflects.length_eq, ?_, ?_⟩
  · intro scope limit positive same
    rw [reflects.length_eq]
    exact reflects.right.keysHeld_length_le positive same
  · intro later past scope limit key value answer split held
    subst split
    cases reflects.right.earlier with
    | next right answered =>
        have filled : key ≠ "" := right.key_ne held
        rwa [IsRight, if_neg filled, if_neg fun refused => refused.2.2 held] at answered

/-- A script stores under one key, and fails when it wants a second one. -/
def crowdedScript : String :=
  "store_data(\"k\", 1); store_data(\"k\", 2); store_data(\"other\", 3)"

theorem crowdedScript_stored :
    let start : Sandbox := { settings := ⟨64, 8, none⟩ }
    let context : ScriptContext := { capability := .effects, invocation := ⟨some ⟨1⟩, none, none⟩ }
    let limits : Limits := ⟨1000000000, 1000, 1000, 100, 1, 8, 32⟩
    let events := start.eventsOf ⟨0, 0⟩ crowdedScript context limits
    let after := (start.run ⟨0, 0⟩ crowdedScript context limits).2
    let scope := context.invocation.scope
    (start.run ⟨0, 0⟩ crowdedScript context limits).1.isOk = false ∧ events.length = 3 ∧
      Sandbox.Storing events after ∧ AreRight events ∧
      (after.data.shelf scope).get? "k" = lastStored scope "k" events ∧
      keysHeld scope events = ["k"] ∧ (after.data.shelf scope).length ≤ 1 := by
  intro start context limits events after scope
  have storing : Sandbox.Storing (events ++ []) after :=
    (Sandbox.Storing.start rfl).run ⟨0, 0⟩ crowdedScript context limits
  rw [List.append_nil] at storing
  obtain ⟨served, map⟩ := data_store_is_map
  obtain ⟨right, found, _, bounded, _⟩ := map _ _ (served events after storing)
  have oneLimit : ∀ other key value answer,
      StoringEvent.stored scope other key value answer ∈ events → other = 1 := by
    intro other key value answer held
    obtain ⟨call, _, event⟩ := List.mem_filterMap.mp held
    exact StoringEvent.ofCall_limit event
  exact ⟨by decide +kernel, by decide +kernel, storing, right, found scope "k", by decide +kernel,
    bounded scope 1 Nat.one_pos oneLimit⟩

end Rulebook
