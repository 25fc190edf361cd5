import Rulebook.Proofs.Script.Pairing
import Rulebook.Script.Evaluator

/-!
Two runs of one program do the same, part by part, as long as neither is lost for comparison and
neither runs out of time.
-/

namespace Rulebook.Script

open Pairing

variable {Left Right α : Type} {pairing : Pairing Left Right}

/-! Variables -/

namespace Run

theorem push_alike (entry : Variable) : pairing.Alike (push entry) (push entry) := by
  refine .change ?_ (fun _ => rfl) fun _ => rfl
  rintro _ _ ⟨kin⟩
  exact .alike kin

theorem forget_alike (count : Nat) : pairing.Alike (forget count) (forget count) := by
  refine .change ?_ (fun _ => rfl) fun _ => rfl
  rintro _ _ ⟨kin⟩
  exact .alike kin

theorem enclosed_alike {first : Run Left α} {second : Run Right α}
    (same : pairing.Alike first second) : pairing.Alike (enclosed first) (enclosed second) :=
  .withMachine fun scope _ _ _ _ _ _ _ => same.bind fun value =>
    (forget_alike scope.length).bind fun _ => .pure value

theorem entry_alike (name : String) : pairing.Alike ( entry? name) ( entry? name) :=
  .withMachine fun _ _ _ _ _ _ _ _ => .pure _

theorem resolve_alike (value : Value) : pairing.Alike (resolve value) (resolve value) := by
  cases value with
  | cell index => exact .withMachine fun _ _ _ _ _ _ _ _ => .pure _
  | _ => exact .pure _

theorem store_alike (name : String) (value : Value) :
    pairing.Alike (store name value) (store name value) := by
  have inScope : pairing.Alike
      (modify fun machine => { machine with scope := setVariable name value machine.scope })
      (modify fun machine => { machine with scope := setVariable name value machine.scope }) := by
    refine .change ?_ (fun _ => rfl) fun _ => rfl
    rintro _ _ ⟨kin⟩
    exact .alike kin
  refine (entry_alike name).bind fun entry => ?_
  rcases entry with _ | ⟨label, old, constant⟩
  · exact inScope
  · cases old with
    | cell index =>
        refine .change ?_ (fun _ => rfl) fun _ => rfl
        rintro _ _ ⟨kin⟩
        exact .alike kin
    | _ => exact inScope

theorem share_alike (name : String) : pairing.Alike (share name) (share name) := by
  have shared (value : Value) (constant : Bool) : pairing.Alike
      (modify fun machine =>
        { machine with
          scope := setVariable name (.cell machine.cells.size) machine.scope
          cells := machine.cells.push ⟨value, constant⟩ })
      (modify fun machine =>
        { machine with
          scope := setVariable name (.cell machine.cells.size) machine.scope
          cells := machine.cells.push ⟨value, constant⟩ }) := by
    refine .change ?_ (fun _ => rfl) fun _ => rfl
    rintro _ _ ⟨kin⟩
    exact .alike kin
  refine (entry_alike name).bind fun entry => ?_
  rcases entry with _ | ⟨label, value, constant⟩
  · exact .pure _
  · cases value with
    | cell index => exact .pure _
    | _ => exact shared _ constant

theorem isConstant_alike (entry : Variable) :
    pairing.Alike (isConstant entry) (isConstant entry) := by
  obtain ⟨name, value, constant⟩ := entry
  cases value with
  | cell index => exact .withMachine fun _ _ _ _ _ _ _ _ => .pure _
  | _ => exact .pure _

theorem function?_alike (name : String) (parameters : Nat) :
    pairing.Alike (function? name parameters) (function? name parameters) := by
  refine .withSetup ?_
  rw [pairing.functions]
  exact .pure _

end Run

/-! Calls -/

/-- Evaluators that do the same with the parts of a script. -/
structure Evaluator.Alike (pairing : Pairing Left Right) (first : Evaluator Left)
    (second : Evaluator Right) : Prop where
  expr : ∀ expr, pairing.Alike (first.expr expr) (second.expr expr)
  block : ∀ body, pairing.Alike (first.block body) (second.block body)

namespace Evaluator

open Run

/-- What a call does between counting it and its end; what was in reach before is put back. -/
def entered {State : Type} (evaluator : Evaluator State) (function : Function)
    (receiver : Option Receiver) (arguments : List Value) (before : Machine Unit) :
    Run State (Value × Option Value) := do
  let parameters := (function.parameters.zip arguments).map fun (name, value) =>
    Variable.mk name value false
  modify fun machine =>
    { machine with scope := parameters.reverse, receiver, level := before.level + 1 }
  let restore : Run State Unit := modify fun machine =>
    { machine with scope := before.scope, receiver := before.receiver, level := before.level }
  let result ← tryCatch (evaluator.block function.body) fun
    | .give value => pure value
    | interrupt => do
      restore
      throw interrupt
  let after := (← get).receiver
  restore
  return (← resolve result, after.map Receiver.value)

def entering {State : Type} (evaluator : Evaluator State) (function : Function)
    (receiver : Option Receiver) (arguments : List Value) : Run State (Value × Option Value) :=
  fun setup machine =>
    if setup.limits.callLevels < machine.level + 1 then .error .tooManyCalls machine
    else evaluator.entered function receiver arguments { machine with host := () } setup machine

theorem invoke_eq {State : Type} (evaluator : Evaluator State) (function : Function)
    (receiver : Option Receiver) (arguments : List Value) :
    evaluator.invoke function receiver arguments =
      if function.body.isEmpty then pure (.unit, receiver.map Receiver.value)
      else tick >>= fun _ => evaluator.entering function receiver arguments := by
  unfold invoke
  split
  · rfl
  · congr
    funext _ setup machine
    rw [entering]
    change (if setup.limits.callLevels < machine.level + 1 then _ else _ :
      Run State (Value × Option Value)) setup machine = _
    split <;> rfl

/-- Functions that take functions, on both sides or on none. -/
inductive HigherAlike (pairing : Pairing Left Right) :
    Option (Bool × Run Left (Value × List Value)) →
      Option (Bool × Run Right (Value × List Value)) → Prop where
  | none : HigherAlike pairing none none
  | some {changes : Bool} {first : Run Left (Value × List Value)}
      {second : Run Right (Value × List Value)} : pairing.Alike first second →
      HigherAlike pairing (some (changes, first)) (some (changes, second))

def answered {State : Type} (place : Position) (result : Except Problem Value) :
    Run State (Value × Option Value) := do
  let value ← placing place (lift (result.mapError Interrupt.of))
  return (← admitted value, none)

variable {first : Evaluator Left} {second : Evaluator Right} (alike : Alike pairing first second)

include alike

theorem invoke_alike (function : Function) (receiver : Option Receiver) (arguments : List Value) :
    pairing.Alike (first.invoke function receiver arguments)
      (second.invoke function receiver arguments) := by
  have callLevels : pairing.right.limits.callLevels = pairing.left.limits.callLevels := by
    rw [pairing.limits]
  have body (before : Machine Unit) :
      pairing.Alike (first.entered function receiver arguments before)
        (second.entered function receiver arguments before) := by
    have restored : pairing.Alike
        (modify fun machine =>
          { machine with
            scope := before.scope, receiver := before.receiver, level := before.level })
        (modify fun machine =>
          { machine with
            scope := before.scope, receiver := before.receiver, level := before.level }) := by
      refine .change ?_ (fun _ => rfl) fun _ => rfl
      rintro _ _ ⟨kin⟩
      exact .alike kin
    refine .bind (.change ?_ (fun _ => rfl) fun _ => rfl) fun _ => ?_
    · rintro _ _ ⟨kin⟩
      exact .alike kin
    refine .bind (.tryCatch (alike.block _) ?_ ?_ ?_) fun result => ?_
    · intro interrupt
      cases interrupt with
      | give value => exact .pure value
      | _ => exact restored.bind fun _ => .throw _
    · exact fun machine => ⟨_, rfl⟩
    · exact fun machine => ⟨_, rfl⟩
    · refine .withMachine fun _ _ _ after _ _ _ _ => restored.bind fun _ => ?_
      exact (resolve_alike result).bind fun value => .pure (value, after.map Receiver.value)
  rw [invoke_eq, invoke_eq]
  split
  · exact .pure _
  · refine Alike.tick.bind fun _ => ⟨?_, ?_, ?_⟩
    · rintro _ _ ⟨kin⟩
      simp only [entering, callLevels]
      split
      · exact .error (.alike kin)
      · exact (body _).agree _ _ (.alike kin)
    · intro machine lost
      simp only [entering]
      split
      · exact lost
      · exact (body _).left machine lost
    · intro machine lost
      simp only [entering]
      split
      · exact lost
      · exact (body _).right machine lost

omit alike in
theorem native_alike (name : String) (arguments : List Value) (locked : Bool) (place : Position) :
    pairing.Alike (native name arguments locked place) (native name arguments locked place) := by
  refine .withSetup ?_
  cases foundLeft : pairing.left.host.function? name arguments with
  | some call =>
      cases foundRight : pairing.right.host.function? name arguments with
      | none =>
          have none := (pairing.missing name arguments).mpr foundRight
          rw [foundLeft] at none
          cases none
      | some other =>
          have step := pairing.function name arguments call other foundLeft foundRight
          change pairing.Alike (ofHost call >>= answered place) (ofHost other >>= answered place)
          refine Alike.bind (.host step) fun result => ?_
          refine (Alike.placing place (.lift _)).bind fun value => ?_
          exact (Alike.admitted value).bind fun value => .pure (value, none)
  | none =>
      have foundRight := (pairing.missing name arguments).mp foundLeft
      have same : Library.find? pairing.right.limits name arguments =
          Library.find? pairing.left.limits name arguments := by
        rw [pairing.limits]
        rfl
      rw [foundRight, same]
      cases Library.find? pairing.left.limits name arguments with
      | none => exact .fail _ place
      | some effect =>
          cases effect with
          | gives result =>
              refine (Alike.placing place (.lift result)).bind fun value => ?_
              exact (Alike.admitted value).bind fun value => .pure (value, none)
          | changes result =>
              cases locked with
              | true => exact .fail _ place
              | false =>
                  refine (Alike.placing place (.lift result)).bind fun both => ?_
                  refine (Alike.admitted both.1).bind fun value => ?_
                  exact (Alike.admitted both.2).bind fun changed => .pure (value, some changed)

theorem callback_alike (name : String) (bound : List Value) (item : Option Value) (moved : Nat)
    (arguments extras : List Value) (place : Position) :
    pairing.Alike (first.callback name bound item moved arguments extras place)
      (second.callback name bound item moved arguments extras place) := by
  refine .withSetup ?_
  rw [pairing.functions]
  dsimp only
  split
  · exact invoke_alike alike _ _ _
  · exact native_alike name _ false place

theorem onItem_alike (name : String) (bound : List Value) (place : Position)
    (pair : Value × Nat) :
    pairing.Alike (first.onItem name bound place pair) (second.onItem name bound place pair) :=
  (callback_alike alike name bound (some pair.1) 0 [] [.int pair.2] place).bind fun answer =>
    .pure answer.1

theorem holds_alike (name : String) (bound : List Value) (place : Position)
    (pair : Value × Nat) :
    pairing.Alike (first.holds name bound place pair) (second.holds name bound place pair) :=
  (onItem_alike alike name bound place pair).bind fun _ => .pure _

theorem firstResult_alike (name : String) (bound : List Value) (place : Position)
    (pairs : List (Value × Nat)) :
    pairing.Alike (first.firstResult name bound place pairs)
      (second.firstResult name bound place pairs) := by
  induction pairs with
  | nil => exact .pure _
  | cons pair rest ih =>
      refine (onItem_alike alike name bound place pair).bind fun value => ?_
      cases value with
      | unit => exact ih
      | _ => exact .pure _

theorem firstHolding_alike (name : String) (bound : List Value) (place : Position)
    (pairs : List (Value × Nat)) :
    pairing.Alike (first.firstHolding name bound place pairs)
      (second.firstHolding name bound place pairs) := by
  induction pairs with
  | nil => exact .pure _
  | cons pair rest ih =>
      refine (holds_alike alike name bound place pair).bind fun holding => ?_
      cases holding with
      | false => exact ih
      | true => exact .pure _

theorem partition_alike (name : String) (bound : List Value) (place : Position)
    (pairs : List (Value × Nat)) :
    pairing.Alike (first.partition name bound place pairs)
      (second.partition name bound place pairs) := by
  induction pairs with
  | nil => exact .pure _
  | cons pair rest ih =>
      refine (holds_alike alike name bound place pair).bind fun holding => ?_
      exact ih.bind fun _ => .pure _

theorem reduce_alike (name : String) (bound : List Value) (place : Position) (start : Value)
    (items : List (Value × Nat)) :
    pairing.Alike (first.reduce name bound place start items)
      (second.reduce name bound place start items) :=
  .foldlM items (fun value item =>
    (callback_alike alike name bound (some item.1) 1 [value] [.int item.2] place).bind
      fun answer => .pure answer.1) start

theorem comesAfter_alike (name : String) (bound : List Value) (place : Position)
    (left right : Value) :
    pairing.Alike (first.comesAfter name bound place left right)
      (second.comesAfter name bound place left right) := by
  refine .bind (.tryCatch (callback_alike alike name bound none 0 [left, right] [] place) ?_ ?_ ?_)
    fun answer => ?_
  · intro interrupt
    cases interrupt with
    | failed problem place => exact .pure _
    | _ => exact .throw _
  · exact fun machine => ⟨_, rfl⟩
  · exact fun machine => ⟨_, rfl⟩
  · obtain ⟨value, changed⟩ := answer
    cases value with
    | _ => exact .pure _

theorem insertSorted_alike (name : String) (bound : List Value) (place : Position)
    (value : Value) (sorted : List Value) :
    pairing.Alike (first.insertSorted name bound place value sorted)
      (second.insertSorted name bound place value sorted) := by
  induction sorted with
  | nil => exact .pure _
  | cons item rest ih =>
      refine (comesAfter_alike alike name bound place item value).bind fun after => ?_
      cases after with
      | true => exact .pure _
      | false => exact ih.bind fun _ => .pure _

theorem sortBy_alike (name : String) (bound : List Value) (place : Position)
    (items : List Value) :
    pairing.Alike (first.sortBy name bound place items) (second.sortBy name bound place items) :=
  .foldlM items (fun sorted item => insertSorted_alike alike name bound place item sorted) []

theorem dedupBy_alike (name : String) (bound : List Value) (place : Position)
    (items : List Value) :
    pairing.Alike (first.dedupBy name bound place items)
      (second.dedupBy name bound place items) := by
  refine .bind (.foldlM items (fun kept item => ?_) []) fun kept => .pure kept.reverse
  cases kept with
  | nil => exact .pure _
  | cons last rest =>
      exact (callback_alike alike name bound none 0 [last, item] [] place).bind fun _ => .pure _

theorem higher?_alike (name : String) (items : List Value) (function : String)
    (bound others : List Value) (place : Position) :
    HigherAlike pairing (first.higher? name items function bound others place)
      (second.higher? name items function bound others place) := by
  have gives {action : Run Left Value} {other : Run Right Value}
      (same : pairing.Alike action other) :
      HigherAlike pairing (some (false, do return (← action, items)))
        (some (false, do return (← other, items))) :=
    .some (same.bind fun _ => .pure _)
  unfold higher?
  dsimp only
  split
  · exact gives ((Alike.mapM _ (onItem_alike alike function bound place)).bind fun _ => .pure _)
  · exact gives ((partition_alike alike function bound place _).bind fun _ => .pure _)
  · exact gives ((firstHolding_alike alike function bound place _).bind fun _ => .pure _)
  · exact gives (firstResult_alike alike function bound place _)
  · exact gives ((firstHolding_alike alike function bound place _).bind fun _ => .pure _)
  · exact gives ((firstHolding_alike alike function bound place _).bind fun _ => .pure _)
  · exact gives ((Alike.allM _ (holds_alike alike function bound place)).bind fun _ => .pure _)
  · exact gives (reduce_alike alike function bound place _ _)
  · exact gives (reduce_alike alike function bound place _ _)
  · exact gives (reduce_alike alike function bound place _ _)
  · exact gives (reduce_alike alike function bound place _ _)
  · refine .some (.bind (.mapM _ fun pair => ?_) fun _ => .pure _)
    exact (callback_alike alike function bound (some pair.1) 0 [] [.int pair.2] place).bind
      fun _ => .pure _
  · exact .some ((partition_alike alike function bound place _).bind fun _ => .pure _)
  · exact .some ((partition_alike alike function bound place _).bind fun _ => .pure _)
  · exact .some ((sortBy_alike alike function bound place items).bind fun _ => .pure _)
  · exact .some ((dedupBy_alike alike function bound place items).bind fun _ => .pure _)
  · exact .none

omit alike in
theorem deeper_alike {action : Run Left α} {other : Run Right α}
    (same : pairing.Alike action other) : pairing.Alike (deeper action) (deeper other) := by
  refine .bind (.change ?_ (fun _ => rfl) fun _ => rfl) fun _ => same.bind fun value =>
    .bind (.change ?_ (fun _ => rfl) fun _ => rfl) fun _ => .pure value
  · rintro _ _ ⟨kin⟩
    exact .alike kin
  · rintro _ _ ⟨kin⟩
    exact .alike kin

theorem outside_alike (name : String) (arguments : List Value) (locked : Bool)
    (place : Position) :
    pairing.Alike (first.outside name arguments locked place)
      (second.outside name arguments locked place) := by
  refine Alike.tick.bind fun _ => ?_
  rcases arguments with _ | ⟨value, rest⟩
  · exact native_alike name [] locked place
  · cases value with
    | list items =>
        rcases rest with _ | ⟨value, others⟩
        · exact native_alike name _ locked place
        · cases value with
          | function function bound =>
              have higher := higher?_alike alike name items function bound others place
              dsimp only
              generalize first.higher? name items function bound others place = way at higher ⊢
              generalize second.higher? name items function bound others place = other at higher ⊢
              cases higher with
              | none => exact native_alike name _ locked place
              | some same =>
                  dsimp only
                  split
                  · exact .fail _ place
                  · refine (Alike.placing place (deeper_alike same)).bind fun both => ?_
                    refine (Alike.admitted both.1).bind fun value => ?_
                    split
                    · exact (Alike.admitted _).bind fun changed => .pure (value, some changed)
                    · exact .pure _
          | _ => exact native_alike name _ locked place
    | _ => exact native_alike name _ locked place

/-! Calls by name -/

omit alike in
theorem print_alike (text : String) : pairing.Alike
    (modify fun machine => { machine with host := pairing.left.host.print text machine.host })
    (modify fun machine => { machine with host := pairing.right.host.print text machine.host }) :=
  .host (pairing.print text)

omit alike in
theorem debug_alike (text : String) : pairing.Alike
    (modify fun machine => { machine with host := pairing.left.host.debug text machine.host })
    (modify fun machine => { machine with host := pairing.right.host.debug text machine.host }) :=
  .host (pairing.debug text)

omit alike in
theorem wrongFunction_alike (value : Value) (place : Position) :
    pairing.Alike (wrongFunction value place : Run Left α) (wrongFunction value place) :=
  .fail _ place

omit alike in
theorem pointer_alike (value : Value) (place : Position) :
    pairing.Alike (pointer value place) (pointer value place) := by
  cases value with
  | text name =>
      simp only [pointer]
      split
      · exact .pure _
      · exact .fail _ place
  | _ => exact .fail _ place

theorem dispatch_alike (name : String) (arguments : List Value) (place : Position) :
    pairing.Alike (first.dispatch name arguments place)
      (second.dispatch name arguments place) := by
  refine (function?_alike name arguments.length).bind fun function => ?_
  cases function with
  | some function => exact (invoke_alike alike function none arguments).bind fun _ => .pure _
  | none =>
      dsimp only
      split
      · exact .withSetup (.bind (print_alike _) fun _ => .pure _)
      · exact .withSetup (.bind (print_alike _) fun _ => .pure _)
      · exact .withSetup (.bind (debug_alike _) fun _ => .pure _)
      · exact .pure _
      · exact .pure _
      · exact (pointer_alike _ place).bind fun _ => .pure _
      · exact (entry_alike _).bind fun _ => .pure _
      · exact (function?_alike _ _).bind fun _ => .pure _
      · exact outside_alike alike name arguments false place

theorem callValue_alike (function : Value) (arguments : List Value)
    (functionPlace place : Position) :
    pairing.Alike (first.callValue function arguments functionPlace place)
      (second.callValue function arguments functionPlace place) := by
  cases function with
  | function name bound => exact (dispatch_alike alike name _ place).bind fun _ => .pure _
  | _ => exact wrongFunction_alike _ functionPlace

theorem onTarget_alike (name : String) (arguments : List Value) (target : Value) (locked : Bool)
    (place : Position) :
    pairing.Alike
      (do
        match ← function? name arguments.length with
        | some function => first.invoke function (some ⟨target, locked⟩) arguments
        | none => first.outside name (target :: arguments) locked place)
      (do
        match ← function? name arguments.length with
        | some function => second.invoke function (some ⟨target, locked⟩) arguments
        | none => second.outside name (target :: arguments) locked place) := by
  refine (function?_alike name arguments.length).bind fun function => ?_
  cases function with
  | some function => exact invoke_alike alike function _ arguments
  | none => exact outside_alike alike name _ locked place

theorem method_alike (name : String) (arguments : List Value) (target : Value) (locked : Bool)
    (firstPlace place : Position) :
    pairing.Alike (first.method name arguments target locked firstPlace place)
      (second.method name arguments target locked firstPlace place) := by
  unfold method
  dsimp only
  split
  · exact (callValue_alike alike _ _ place place).bind fun _ => .pure _
  · exact onTarget_alike alike _ _ _ locked place
  · exact wrongFunction_alike _ firstPlace
  · exact wrongFunction_alike _ place
  · exact .pure _
  · exact wrongFunction_alike _ place
  · exact .pure _
  · exact .pure _
  · split
    · exact onTarget_alike alike _ _ _ locked place
    · exact onTarget_alike alike _ _ _ locked place
  · exact onTarget_alike alike _ _ _ locked place

end Evaluator

end Rulebook.Script
