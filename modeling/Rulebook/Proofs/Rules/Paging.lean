import Rulebook.Proofs.Engine.Publishing
import Rulebook.Proofs.Rules.Content
import Rulebook.Proofs.Rules.Creation
import Rulebook.Service

/-!
Listings of rules, page by page. Pages of one size are cut, one after the other, from one list: all
rules with the flag that is asked for, in the order in which rules are evaluated.
-/

namespace Rulebook

variable {α World : Type}

/-! Pages of a list -/

/-- Pages of one size that make up a list. Only a page that none with something on it follows may
be short, an empty one comes in the end, and what is on the pages before it is the whole list. -/
structure Paginates (size : Nat) (page : Nat → List α) (whole : List α) : Prop where
  bounded : ∀ index, (page index).length ≤ size
  full : ∀ index, page (index + 1) ≠ [] → (page index).length = size
  ends : ∃ count, page count = []
  joined : ∀ count, page count = [] → (List.range count).flatMap page = whole

def pageOf (list : List α) (size index : Nat) : List α :=
  (list.drop (index * size)).take size

theorem pageOf_eq_nil {list : List α} {size index : Nat} (pos : 0 < size) :
    pageOf list size index = [] ↔ list.length ≤ index * size := by
  rw [pageOf, List.take_eq_nil_iff, List.drop_eq_nil_iff]
  omega

theorem flatMap_pageOf (list : List α) (size count : Nat) :
    (List.range count).flatMap (pageOf list size) = list.take (count * size) := by
  induction count with
  | zero => simp
  | succ count ih =>
      rw [List.range_succ, List.flatMap_append, ih, Nat.succ_mul, List.take_add]
      simp [pageOf]

theorem pageOf_paginates (list : List α) {size : Nat} (pos : 0 < size) :
    Paginates size (pageOf list size) list where
  bounded index := by
    rw [pageOf, List.length_take]
    exact Nat.min_le_left _ _
  full index more := by
    have reached : (index + 1) * size < list.length :=
      Nat.lt_of_not_le fun past => more ((pageOf_eq_nil pos).mpr past)
    rw [Nat.succ_mul] at reached
    rw [pageOf, List.length_take, List.length_drop]
    omega
  ends := ⟨list.length, (pageOf_eq_nil pos).mpr (Nat.le_mul_of_pos_right _ pos)⟩
  joined count empty := by
    rw [flatMap_pageOf, List.take_of_length_le ((pageOf_eq_nil pos).mp empty)]

namespace RuleGraph

variable {graph : RuleGraph} {enabled : Option Bool}

/-! What is listed -/

/-- All rules with the flag that is asked for, if one is. Each is there once; they come in the order
of evaluation, and those that are enabled as they do in a pass. -/
structure Lists (graph : RuleGraph) (enabled : Option Bool) (rules : List Rule) : Prop where
  held : ∀ rule, rule ∈ rules ↔ graph.rules.get? rule.id = some rule ∧
    ∀ flag, enabled = some flag → rule.enabled = flag
  once : (rules.map (·.id)).Nodup
  ordered : rules.Pairwise Rule.Precedes
  evaluated : (rules.filter (·.enabled)).Sublist (graph.rulesInOrder true)

def listing (graph : RuleGraph) (enabled : Option Bool) : List Rule :=
  (graph.rulesInOrder false).filter fun rule => agrees enabled rule.enabled

theorem agrees_iff {flag : Bool} :
    agrees enabled flag = true ↔ ∀ asked, enabled = some asked → flag = asked := by
  cases enabled <;> simp [agrees]

theorem Intact.listing_lists (intact : graph.Intact) (enabled : Option Bool) :
    graph.Lists enabled (graph.listing enabled) where
  held rule := by
    rw [listing, List.mem_filter, mem_rulesInOrder, intact.rules.mem_values_iff, agrees_iff]
    simp
  once := (intact.rulesInOrder_ids_nodup false).sublist (List.filter_sublist.map _)
  ordered := intact.rulesInOrder_precede.sublist List.filter_sublist
  evaluated := by
    rw [intact.rulesInOrder_true, listing]
    exact List.filter_sublist.filter _

/-! What is on a page -/

theorem listRules_eq (limit : Option Nat) (offset : Nat) :
    graph.listRules ⟨enabled, limit, offset⟩ =
      ((graph.listing enabled).drop offset).take (min (limit.getD 50) 1000) :=
  rfl

theorem listRules_page {size : Nat} (most : size ≤ 1000) (index : Nat) :
    graph.listRules ⟨enabled, some size, index * size⟩ =
      pageOf (graph.listing enabled) size index := by
  rw [listRules_eq, Option.getD_some, Nat.min_eq_left most, pageOf]

end RuleGraph

/-! What the service answers -/

/-- If a client asks for a page size, it is neither 0 nor above 1000. -/
def RuleQuery.isSized (query : RuleQuery) : Bool :=
  query.limit.all fun limit => 1 ≤ limit.toNat && limit.toNat ≤ 1000

theorem RuleQuery.isSized_some_iff {enabled : Option Bool} {limit offset : UInt64} :
    RuleQuery.isSized ⟨enabled, some limit, offset⟩ ↔ 1 ≤ limit.toNat ∧ limit.toNat ≤ 1000 := by
  simp [RuleQuery.isSized]

theorem RuleQuery.check_eq (query : RuleQuery) :
    query.check = if query.isSized then .ok ()
      else .error (.invalid "limit" "limit 必须在1-1000之间") := by
  rcases query with ⟨enabled, _ | limit, offset⟩
  · rfl
  · exact (if_congr RuleQuery.isSized_some_iff rfl rfl).symm

theorem RuleQuery.toFilter_eq {query : RuleQuery} (sized : query.isSized) :
    query.toFilter = ⟨query.enabled, query.limit.map (·.toNat), query.offset.toNat⟩ := by
  rcases query with ⟨enabled, _ | limit, offset⟩
  · rfl
  · have most := (RuleQuery.isSized_some_iff.mp sized).2
    simp [RuleQuery.toFilter, RuleGraph.maxPageSize, Nat.min_eq_left most]

theorem Service.whenValid_run (check : Check) (part : EngineM World α) (engine : Engine World) :
    (Service.whenValid check part).run engine =
      match check with
      | .ok _ => part.run engine
      | .error refusal => (.error refusal, engine) := by
  cases check <;> rfl

theorem Service.listRules_run (query : RuleQuery) (engine : Engine World) :
    (Service.listRules query).run engine =
      if query.isSized then
        (.ok (engine.graph.listRules
          ⟨query.enabled, query.limit.map (·.toNat), query.offset.toNat⟩), engine)
      else (.error (.invalid "limit" "limit 必须在1-1000之间"), engine) := by
  rw [Service.listRules, Service.whenValid_run, query.check_eq]
  by_cases sized : query.isSized
  · rw [if_pos sized, if_pos sized, query.toFilter_eq sized]
    exact Engine.look_run _ engine
  · rw [if_neg sized, if_neg sized]

/-- In whatever state the rules are, all pages of one size are together the rules with the flag that
is asked for, in order and each once. A size above 1000 counts as 1000, and none as 50; past the
last rule there is nothing. Clients get the same pages, unless they ask for a size of 0 or of more
than 1000. -/
theorem pages_complete {graph : RuleGraph} (reachable : graph.Reachable) :
    (∀ enabled, ∃ whole, graph.Lists enabled whole ∧
      (∀ size, 1 ≤ size → size ≤ 1000 →
        Paginates size (fun index => graph.listRules ⟨enabled, some size, index * size⟩) whole) ∧
      (∀ limit offset, 1000 < limit → graph.listRules ⟨enabled, some limit, offset⟩ =
        graph.listRules ⟨enabled, some 1000, offset⟩) ∧
      (∀ offset, graph.listRules ⟨enabled, none, offset⟩ =
        graph.listRules ⟨enabled, some 50, offset⟩) ∧
      ∀ limit offset, whole.length ≤ offset →
        graph.listRules ⟨enabled, limit, offset⟩ = []) ∧
    ∀ (query : RuleQuery) (engine : Engine World), engine.graph = graph →
      (Service.listRules query).run engine =
        if query.isSized then
          (.ok (graph.listRules ⟨query.enabled, query.limit.map (·.toNat), query.offset.toNat⟩),
            engine)
        else (.error (.invalid "limit" "limit 必须在1-1000之间"), engine) := by
  refine ⟨fun enabled => ⟨graph.listing enabled, reachable.intact.listing_lists enabled,
    ?_, ?_, ?_, ?_⟩, ?_⟩
  · intro size least most
    have pages : (fun index => graph.listRules ⟨enabled, some size, index * size⟩) =
        pageOf (graph.listing enabled) size := by
      funext index
      exact RuleGraph.listRules_page most index
    rw [pages]
    exact pageOf_paginates _ least
  · intro limit offset large
    rw [RuleGraph.listRules_eq, RuleGraph.listRules_eq, Option.getD_some, Option.getD_some,
      Nat.min_eq_right (Nat.le_of_lt large), Nat.min_self]
  · intro offset
    rfl
  · intro limit offset past
    rw [RuleGraph.listRules_eq, List.drop_eq_nil_of_le past, List.take_nil]
  · rintro query engine rfl
    exact Service.listRules_run query engine

/-- The enabled rules of the roster, two on a page; a client who asks for 1001 gets none. -/
theorem reorderedOperations_paged :
    let graph := Operation.run reorderedOperations {}
    let engine := { Engine.create givingPlatform {} ⟨0⟩ with graph }
    let page (index : Nat) := graph.listRules ⟨some true, some 2, index * 2⟩
    (∃ whole, graph.Lists (some true) whole ∧ Paginates 2 page whole) ∧
      (page 0).map (·.id) = [⟨9⟩, ⟨4⟩] ∧ (page 1).map (·.id) = [⟨1⟩] ∧ page 2 = [] ∧
      (Service.listRules ⟨some true, some 2, 2⟩).run engine = (.ok (page 1), engine) ∧
      (Service.listRules ⟨some true, some 1001, 0⟩).run engine =
        (.error (.invalid "limit" "limit 必须在1-1000之间"), engine) := by
  intro graph engine page
  have reachable : graph.Reachable := ⟨reorderedOperations, History.ofFresh (by decide +kernel)⟩
  have values : graph.rules.values =
      [⟨⟨4⟩, "second", "true", 0, true, [], [], ⟨0, 0⟩, ⟨0, 0⟩, 2⟩,
        ⟨⟨6⟩, "third", "true", 0, false, [], [], ⟨0, 0⟩, ⟨0, 0⟩, 3⟩,
        ⟨⟨1⟩, "fourth", "true", 0, true, [], [], ⟨0, 0⟩, ⟨0, 0⟩, 4⟩,
        ⟨⟨9⟩, "first again", "true", 3, true, [], [], ⟨0, 0⟩, ⟨0, 0⟩, 5⟩] := by decide +kernel
  have listing : graph.listing (some true) =
      [⟨⟨9⟩, "first again", "true", 3, true, [], [], ⟨0, 0⟩, ⟨0, 0⟩, 5⟩,
        ⟨⟨4⟩, "second", "true", 0, true, [], [], ⟨0, 0⟩, ⟨0, 0⟩, 2⟩,
        ⟨⟨1⟩, "fourth", "true", 0, true, [], [], ⟨0, 0⟩, ⟨0, 0⟩, 4⟩] := by
    simp [RuleGraph.listing, RuleGraph.rulesInOrder, values, List.mergeSort, Rule.isBefore,
      RuleGraph.agrees]
  have paged (index : Nat) : page index = pageOf (graph.listing (some true)) 2 index :=
    RuleGraph.listRules_page (by decide) index
  obtain ⟨listed, served⟩ := pages_complete reachable
  obtain ⟨whole, lists, pages, _⟩ := listed (some true)
  refine ⟨⟨whole, lists, pages 2 (by decide) (by decide)⟩, ?_, ?_, ?_, ?_, ?_⟩
  · rw [paged, listing]
    rfl
  · rw [paged, listing]
    rfl
  · rw [paged, listing]
    rfl
  · exact (served ⟨some true, some 2, 2⟩ engine rfl).trans (if_pos (by decide))
  · exact (served ⟨some true, some 1001, 0⟩ engine rfl).trans (if_neg (by decide))

end Rulebook
