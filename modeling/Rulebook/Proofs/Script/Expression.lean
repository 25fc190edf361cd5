import Rulebook.Proofs.Script.Alike

/-!
Two runs of one program do the same with expressions, if they do the same with the parts of them.
-/

namespace Rulebook.Script.Evaluator

open Run Pairing

variable {Left Right : Type} {pairing : Pairing Left Right} {first : Evaluator Left}
  {second : Evaluator Right} (alike : Alike pairing first second)

include alike

/-! Parts of values -/

theorem operate_alike (sign : String) (left right : Value) (place : Position) :
    pairing.Alike (first.operate sign left right place)
      (second.operate sign left right place) := by
  unfold operate
  split
  · exact (Alike.placing place (.lift _)).bind fun value => .admitted value
  · exact (outside_alike alike sign [left, right] false place).bind fun _ => .pure _

theorem combined_alike (operator : Option String) (old value : Value) (place : Position) :
    pairing.Alike (first.combined operator old value place)
      (second.combined operator old value place) := by
  unfold combined
  split
  · exact .pure _
  · exact .admitted _
  · exact .admitted _
  · exact (operate_alike alike _ old value place).bind fun value => .admitted value

theorem apply_alike (update : Update) (old : Value) (locked : Bool) :
    pairing.Alike (first.apply update old locked) (second.apply update old locked) := by
  unfold apply
  split
  · exact .fail _ _
  · exact combined_alike alike _ _ _ _

theorem reach_alike (step : Step) : pairing.Alike (first.reach step) (second.reach step) := by
  cases step with
  | property name place optional sign => exact .pure _
  | method name arguments place optional sign =>
      exact (Alike.mapM arguments alike.expr).bind fun values => .pure _
  | index key optional sign => exact (alike.expr key).bind fun value => .pure _

theorem walk_alike (locked : Bool) (value : Value) (update : Option Update)
    (reaches : List Reach) :
    pairing.Alike (first.walk locked value update reaches)
      (second.walk locked value update reaches) := by
  induction reaches generalizing locked value with
  | nil =>
      cases update with
      | none => exact .pure _
      | some update => exact (apply_alike alike update value locked).bind fun _ => .pure _
  | cons step rest ih =>
      unfold walk
      split
      · exact .pure _
      refine Alike.tick.bind fun _ => ?_
      cases step with
      | index key place optional sign =>
          dsimp only
          split
          · rename_i update
            split
            · refine (Alike.placing sign (.lift _)).bind fun old => ?_
              refine (apply_alike alike update old locked).bind fun part => ?_
              exact (Alike.admitted part).bind fun part => (Alike.lift _).bind fun _ => .pure _
            · exact .fail _ sign
          · refine (Alike.placing sign (.lift _)).bind fun part => ?_
            refine (ih locked part).bind fun both => ?_
            obtain ⟨result, _ | changed⟩ := both
            · exact .pure _
            · exact (Alike.lift _).bind fun _ => .pure _
      | property name place optional sign =>
          dsimp only
          split
          · refine (ih locked _).bind fun both => ?_
            obtain ⟨result, _ | changed⟩ := both
            · exact .pure _
            · dsimp only
              split
              · exact (Alike.admitted _).bind fun _ => .pure _
              · exact .pure _
          · split
            · exact .fail _ place
            · refine (Alike.placing place (.lift _)).bind fun part => ?_
              split
              · exact (apply_alike alike _ part false).bind fun _ => .fail _ place
              · exact (ih false part).bind fun _ => .pure _
      | method name arguments argumentPlace place optional sign =>
          refine (method_alike alike name arguments value locked argumentPlace place).bind
            fun both => ?_
          exact (ih false both.1).bind fun _ => .pure _

omit alike in
theorem lookUp_alike (name : String) (place : Position) :
    pairing.Alike (lookUp name place) (lookUp name place) := by
  refine (entry_alike name).bind fun entry => ?_
  cases entry with
  | some entry => exact resolve_alike entry.value
  | none =>
      refine .withSetup ?_
      rw [pairing.functions]
      split
      · exact .pure _
      · exact .fail _ place

theorem walkOn_alike (name : String) (locked : Bool) (value : Value) (target : Option Update)
    (reaches : List Reach) :
    pairing.Alike
      (do
        let (result, changed) ← first.walk locked value target reaches
        match changed with
        | some after => if ¬ locked then store name after
        | none => pure ()
        pure result)
      (do
        let (result, changed) ← second.walk locked value target reaches
        match changed with
        | some after => if ¬ locked then store name after
        | none => pure ()
        pure result) := by
  refine (walk_alike alike locked value target reaches).bind fun both => ?_
  obtain ⟨result, _ | after⟩ := both
  · exact .pure result
  · cases locked with
    | true => exact .pure result
    | false => exact (store_alike name after).bind fun _ => .pure result

theorem chain_alike (root : Expr) (steps : List Step)
    (update : Option (Option String × Value × Position)) :
    pairing.Alike (first.chain root steps update) (second.chain root steps update) := by
  refine (Alike.mapM steps (reach_alike alike)).bind fun reaches => ?_
  cases root with
  | «variable» name place =>
      refine Alike.tick.bind fun _ => (lookUp_alike name place).bind fun value => ?_
      refine (entry_alike name).bind fun entry => ?_
      cases entry with
      | some entry =>
          exact (isConstant_alike entry).bind fun locked =>
            walkOn_alike alike name locked value _ reaches
      | none => exact walkOn_alike alike name false value _ reaches
  | receiver place =>
      refine Alike.tick.bind fun _ => ?_
      refine .withMachine fun _ _ _ receiver _ _ _ _ => ?_
      cases receiver with
      | none => exact .fail _ place
      | some receiver =>
          refine (resolve_alike receiver.value).bind fun value => ?_
          refine (walk_alike alike _ value _ reaches).bind fun both => ?_
          obtain ⟨result, _ | after⟩ := both
          · exact .pure result
          · refine .bind (.change ?_ (fun _ => rfl) fun _ => rfl) fun _ => .pure result
            rintro _ _ ⟨kin⟩
            exact .alike kin
  | _ => exact (alike.expr _).bind fun value => (walk_alike alike _ _ _ _).bind fun _ => .pure _

/-! Expressions -/

theorem truth_alike (expr : Expr) : pairing.Alike (first.truth expr) (second.truth expr) := by
  refine (alike.expr expr).bind fun value => ?_
  cases value with
  | bool value => exact .pure value
  | _ => exact .fail _ expr.place

theorem template_alike (soFar : String) (pieces : List Expr) :
    pairing.Alike (first.template soFar pieces) (second.template soFar pieces) := by
  induction pieces generalizing soFar with
  | nil => exact .pure _
  | cons piece rest ih =>
      refine (alike.expr piece).bind fun value => ?_
      exact (Alike.admitted _).bind fun _ => ih _

theorem items_alike (size : Value.Size) (exprs : List Expr) :
    pairing.Alike (first.items size exprs) (second.items size exprs) := by
  induction exprs generalizing size with
  | nil => exact .pure _
  | cons item rest ih =>
      refine (alike.expr item).bind fun value => .withSetup ?_
      rw [Alike.excess_eq]
      split
      · exact .throw _
      · exact (ih _).bind fun _ => .pure _

theorem fields_alike (size : Value.Size) (named : List (String × Expr)) :
    pairing.Alike (first.fields size named) (second.fields size named) := by
  induction named generalizing size with
  | nil => exact .pure _
  | cons field rest ih =>
      refine (alike.expr field.2).bind fun value => .withSetup ?_
      rw [Alike.excess_eq]
      split
      · exact .throw _
      · exact (ih _).bind fun _ => .pure _

theorem kept_alike (argument : Expr) :
    pairing.Alike (first.kept argument) (second.kept argument) := by
  cases argument with
  | «variable» name place =>
      refine (entry_alike name).bind fun entry => ?_
      cases entry with
      | some entry => exact .pure _
      | none => exact alike.expr _
  | _ => exact alike.expr _

theorem callOnVariable_alike (name argument : String) (argumentPlace : Position)
    (others : List Expr) (place : Position) :
    pairing.Alike (first.callOnVariable name argument argumentPlace others place)
      (second.callOnVariable name argument argumentPlace others place) := by
  refine (Alike.mapM others alike.expr).bind fun values => Alike.tick.bind fun _ => ?_
  refine (lookUp_alike argument argumentPlace).bind fun value => ?_
  refine (dispatch_alike alike name _ place).bind fun both => ?_
  obtain ⟨result, changed⟩ := both
  refine (entry_alike argument).bind fun entry => ?_
  rcases changed with _ | after
  · exact .pure result
  · rcases entry with _ | ⟨label, old, constant⟩
    · exact .pure result
    · dsimp only
      split
      · split
        · exact (store_alike argument after).bind fun _ => .pure result
        · exact .pure result
      · split
        · exact (store_alike argument after).bind fun _ => .pure result
        · exact .pure result

theorem call_alike (name : String) (arguments : List Expr) (place : Position) :
    pairing.Alike (first.call name arguments place) (second.call name arguments place) := by
  unfold call
  split
  · refine (alike.expr _).bind fun function => (Alike.mapM _ alike.expr).bind fun values => ?_
    exact callValue_alike alike function values _ place
  · refine (alike.expr _).bind fun function => ?_
    cases function with
    | function name bound => exact (Alike.mapM _ (kept_alike alike)).bind fun _ => .pure _
    | _ => exact wrongFunction_alike _ _
  · refine (entry_alike _).bind fun entry => ?_
    cases entry with
    | some entry => exact .pure _
    | none => exact .fail _ _
  · exact callOnVariable_alike alike name _ _ _ place
  · refine (Alike.mapM _ alike.expr).bind fun values => ?_
    refine .withMachine fun _ _ _ receiver _ _ _ _ => ?_
    cases receiver with
    | none => exact .fail _ _
    | some receiver =>
        refine (dispatch_alike alike name _ place).bind fun both => ?_
        obtain ⟨result, _ | after⟩ := both
        · exact .pure result
        · dsimp only
          split
          · refine .bind (.change ?_ (fun _ => rfl) fun _ => rfl) fun _ => .pure result
            rintro _ _ ⟨kin⟩
            exact .alike kin
          · exact .pure result
  · refine (Alike.mapM _ alike.expr).bind fun values => ?_
    exact (dispatch_alike alike name values place).bind fun _ => .pure _

theorem qualified_alike (path : List String) (name : String) (arguments : Option (List Expr))
    (place : Position) :
    pairing.Alike (first.qualified path name arguments place)
      (second.qualified path name arguments place) := by
  unfold qualified
  split
  · refine .withMachine fun _ _ globals _ _ _ _ _ => ?_
    dsimp only
    split
    · exact .pure _
    · exact .fail _ place
  · exact (Alike.mapM _ alike.expr).bind fun _ => .fail _ place
  · exact .fail _ place

theorem readExpr_alike (expr : Expr) :
    pairing.Alike (first.readExpr expr) (second.readExpr expr) := by
  refine Alike.tick.bind fun _ => ?_
  cases expr with
  | literal value place => exact .pure value
  | template pieces place => exact template_alike alike "" pieces
  | list values place => exact (items_alike alike _ values).bind fun _ => .pure _
  | map named place => exact (fields_alike alike _ named).bind fun _ => .pure _
  | «variable» name place => exact lookUp_alike name place
  | qualified path name arguments place => exact qualified_alike alike path name arguments place
  | receiver place =>
      refine .withMachine fun _ _ _ receiver _ _ _ _ => ?_
      cases receiver with
      | some receiver => exact resolve_alike receiver.value
      | none => exact .fail _ place
  | call name outside arguments place =>
      cases outside with
      | false => exact call_alike alike name arguments place
      | true =>
          dsimp only
          split
          · refine (alike.expr _).bind fun left => (alike.expr _).bind fun right => ?_
            exact operate_alike alike name left right place
          · refine (Alike.mapM arguments alike.expr).bind fun values => ?_
            exact (outside_alike alike name values false place).bind fun _ => .pure _
  | chain root steps => exact chain_alike alike root steps none
  | both left right place =>
      refine (truth_alike alike left).bind fun holds => ?_
      cases holds with
      | true => exact (truth_alike alike right).bind fun _ => .pure _
      | false => exact .pure _
  | either left right place =>
      refine (truth_alike alike left).bind fun holds => ?_
      cases holds with
      | true => exact .pure _
      | false => exact (truth_alike alike right).bind fun _ => .pure _
  | fallback left right place =>
      refine (alike.expr left).bind fun value => ?_
      cases value with
      | unit => exact alike.expr right
      | _ => exact .pure _
  | block body place => exact alike.block body

end Rulebook.Script.Evaluator
