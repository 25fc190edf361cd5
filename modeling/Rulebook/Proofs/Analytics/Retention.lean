import Mathlib.Data.List.Infix
import Rulebook.Proofs.Analytics.Archive
import Rulebook.Proofs.Analytics.Span

/-!
What is left in an archive of a whole history. Of the records under one key the last one counts,
and it is there unless it is older than the retention at the last reading of the clock. Neither the
batches in which the records came nor the readings before the last one make a difference.
-/

namespace Rulebook

open Std

theorem Uuid.eq_of_compare {left right : Uuid} (same : compare left right = .eq) :
    left = right := by
  have numbers : left.bits.toNat = right.bits.toNat := Std.compare_eq_iff_eq.mp same
  cases left
  cases right
  simpa using BitVec.eq_of_toNat_eq numbers

namespace ExecutionRecord

/-- Whether two records go by the same key. -/
def SameKey (left right : ExecutionRecord) : Prop :=
  left.timestamp = right.timestamp ∧ left.id = right.id

instance (left right : ExecutionRecord) : Decidable (left.SameKey right) :=
  inferInstanceAs (Decidable (_ ∧ _))

theorem order_eq_iff {left right : ExecutionRecord} :
    left.order right = .eq ↔ left.SameKey right := by
  constructor
  · intro same
    obtain ⟨times, ids⟩ := Ordering.then_eq_eq.mp same
    exact ⟨Instant.eq_of_compare times, Uuid.eq_of_compare ids⟩
  · rintro ⟨times, ids⟩
    rw [order, times, ids]
    exact Ordering.then_eq_eq.mpr ⟨ReflCmp.compare_self, ReflCmp.compare_self⟩

/-- Whether a record was passed, and no other one of its key was passed behind it. -/
def IsLast (passed : List ExecutionRecord) (record : ExecutionRecord) : Prop :=
  ∃ before after, passed = before ++ record :: after ∧ ∀ other ∈ after, ¬ other.SameKey record

theorem isLast_append {passed : List ExecutionRecord} {record latest : ExecutionRecord} :
    IsLast (passed ++ [latest]) record ↔
      record = latest ∨ (IsLast passed record ∧ ¬ latest.SameKey record) := by
  constructor
  · rintro ⟨before, after, split, differ⟩
    rcases List.eq_nil_or_concat' after with rfl | ⟨between, final, rfl⟩
    · obtain ⟨-, same⟩ := List.append_inj' split rfl
      exact .inl (List.cons.inj same).1.symm
    · rw [← List.cons_append, ← List.append_assoc] at split
      obtain ⟨earlier, same⟩ := List.append_inj' split rfl
      have final_eq : latest = final := (List.cons.inj same).1
      subst final_eq
      refine .inr ⟨⟨before, between, earlier, fun other held => ?_⟩, ?_⟩
      · exact differ other (List.mem_append_left _ held)
      · exact differ latest (List.mem_append_right _ (List.mem_singleton_self _))
  · rintro (rfl | ⟨⟨before, after, rfl, differ⟩, other⟩)
    · exact ⟨passed, [], rfl, fun _ held => nomatch held⟩
    · refine ⟨before, after ++ [latest], by simp, fun later held => ?_⟩
      rcases List.mem_append.mp held with behind | final
      · exact differ later behind
      · rw [List.mem_singleton.mp final]
        exact other

end ExecutionRecord

open ExecutionRecord

namespace Archive

/-- Putting in records one after the other leaves the last one of each key. -/
theorem mem_insertAll_iff_isLast {batch : List ExecutionRecord} {record : ExecutionRecord} :
    record ∈ insertAll batch [] ↔ IsLast batch record := by
  induction batch using List.reverseRecOn with
  | nil =>
      refine iff_of_false (fun held => nomatch held) ?_
      rintro ⟨before, after, split, -⟩
      simp at split
  | append_singleton earlier latest ih =>
      have ordered : AreOrdered (insertAll earlier []) := insertAll_ordered _ List.Pairwise.nil
      have split : insertAll (earlier ++ [latest]) [] = insert latest (insertAll earlier []) := by
        simp [insertAll]
      have differ : record.order latest ≠ .eq ↔ ¬ latest.SameKey record := by
        rw [ne_eq, order_eq_iff]
        exact not_congr ⟨fun same => ⟨same.1.symm, same.2.symm⟩,
          fun same => ⟨same.1.symm, same.2.symm⟩⟩
      rw [split, mem_insert ordered, ih, isLast_append, differ]

/-- Whether a record is not older than the retention at a reading of the clock. No record is when
there is no instant that long ago. -/
def IsYoung (retention : Duration) (reading : Instant) (record : ExecutionRecord) : Prop :=
  ∀ cutoff, reading.minus? retention = some cutoff → cutoff.isAtMost record.timestamp = true

/-- Outside leap seconds this is a matter of nanoseconds. -/
theorem isYoung_iff {retention : Duration} {reading : Instant} {record : ExecutionRecord}
    (isReading : reading.IsReading) (ordinary : record.timestamp.IsOrdinary) :
    IsYoung retention reading record ↔
      reading.nanoseconds - record.timestamp.nanoseconds ≤ retention.nanoseconds := by
  constructor
  · intro young
    by_contra older
    -- A record of the calendar is older only if the calendar goes back that far.
    have notBefore : Instant.earliestSecond * 1000000000 ≤ record.timestamp.nanoseconds := by
      have bounds := ordinary.bounds
      rw [Instant.nanoseconds]
      omega
    obtain ⟨cutoff, found⟩ : ∃ cutoff, reading.minus? retention = some cutoff :=
      isReading.exists_minus? (by omega)
    obtain ⟨nano, _, same⟩ := isReading.minus?_eq_some_iff.mp found
    have behind := (Instant.isAtMost_iff_nanoseconds nano ordinary.nano).mp (young cutoff found)
    omega
  · intro within cutoff found
    obtain ⟨nano, _, same⟩ := isReading.minus?_eq_some_iff.mp found
    rw [Instant.isAtMost_iff_nanoseconds nano ordinary.nano]
    omega

theorem keeps_iff {retention : Duration} {reading : Instant} {record : ExecutionRecord} :
    keeps retention reading record = true ↔ IsYoung retention reading record := by
  rw [keeps, IsYoung]
  cases reading.minus? retention with
  | none => simp
  | some cutoff => simp

theorem keepsLast_iff {retention : Duration} {history : Archive.History}
    {record : ExecutionRecord} :
    keepsLast retention history record = true ↔
      ∀ given, history.getLast? = some given → IsYoung retention given.1 record := by
  rw [keepsLast, Option.all_eq_true]
  exact forall₂_congr fun given _ => keeps_iff

/-- Whether no reading of the clock found any record too old that was passed until then. -/
def History.KeepsAll (retention : Duration) (history : Archive.History) : Prop :=
  ∀ earlier given, earlier ++ [given] <+: history →
    ∀ record ∈ passed (earlier ++ [given]), IsYoung retention given.1 record

/-- It is enough to look at what was passed until each reading. -/
theorem History.keepsAll_iff {retention : Duration} {history : Archive.History} :
    history.KeepsAll retention ↔ ∀ past ∈ history.inits, ∀ given ∈ past.getLast?,
      ∀ record ∈ passed past, keeps retention given.1 record = true := by
  constructor
  · intro keepsAll past within given last record held
    obtain ⟨earlier, rfl⟩ := List.getLast?_eq_some_iff.mp last
    exact keeps_iff.mpr (keepsAll earlier given ((List.mem_inits _ _).mp within) record held)
  · intro found earlier given within record held
    exact keeps_iff.mp (found (earlier ++ [given]) ((List.mem_inits _ _).mpr within) given
      List.getLast?_concat record held)

instance (retention : Duration) (history : Archive.History) :
    Decidable (history.KeepsAll retention) :=
  decidable_of_iff _ History.keepsAll_iff.symm

theorem recorded_of_keepsAll {retention : Duration} {history : Archive.History}
    (keepsAll : history.KeepsAll retention) :
    (recorded retention history).records = insertAll (passed history) [] := by
  induction history using List.reverseRecOn with
  | nil => rfl
  | append_singleton earlier given ih =>
      have before : History.KeepsAll retention earlier := fun past reading within =>
        keepsAll past reading (within.trans (List.prefix_append _ _))
      have whole : insertAll (passed (earlier ++ [given])) [] =
          insertAll given.2 (insertAll (passed earlier) []) := by
        simp [passed, insertAll]
      rw [recorded_append, add, prune_records, recorded_retention, ih before, whole]
      refine List.filter_eq_self.mpr fun record held => keeps_iff.mpr ?_
      refine keepsAll earlier given List.prefix_rfl record ?_
      change record ∈ insertAll given.2 (insertAll (passed earlier) []) at held
      rw [← whole] at held
      obtain ⟨past, behind, split, _⟩ := mem_insertAll_iff_isLast.mp held
      rw [split]
      simp

/-- Of records with identifiers of their own, an archive that drops nothing holds each one. -/
theorem recorded_perm {retention : Duration} {history : Archive.History}
    (distinct : ((passed history).map (·.id)).Nodup) (keepsAll : history.KeepsAll retention) :
    (recorded retention history).records.Perm (passed history) := by
  have differ : (passed history).Pairwise fun left right => left.order right ≠ .eq :=
    (List.pairwise_map.mp distinct).imp fun unlike same => unlike (order_eq_iff.mp same).2
  have held := recorded_ordered retention history
  refine (List.perm_ext_iff_of_nodup held.nodup (List.Nodup.of_map _ distinct)).mpr fun record => ?_
  rw [recorded_of_keepsAll keepsAll,
    mem_insertAll List.Pairwise.nil (by simpa using AreUnambiguous.of_distinct differ)]
  simp

end Archive

open Archive

/-- An archive holds one record of each key that was ever passed to it, the last one, just if the
last reading of the clock does not make it too old: outside leap seconds, if no more nanoseconds
have gone by since its time than the retention has. So two histories that passed the same records up
to the same reading lead to the same archive. -/
theorem archive_retains (retention : Duration) {history : Archive.History}
    (steady : history.IsSteady) :
    let archive := recorded retention history
    (∀ record, record ∈ archive.records ↔ IsLast (passed history) record ∧
      ∀ given, history.getLast? = some given → IsYoung retention given.1 record) ∧
    AreOrdered archive.records ∧
    (∀ other : Archive.History, other.IsSteady → passed other = passed history →
      other.getLast?.map (·.1) = history.getLast?.map (·.1) →
      recorded retention other = archive) ∧
    ∀ (reading : Instant) (record : ExecutionRecord), reading.IsReading →
      record.timestamp.IsOrdinary → (IsYoung retention reading record ↔
        reading.nanoseconds - record.timestamp.nanoseconds ≤ retention.nanoseconds) := by
  have held (past : Archive.History) (fine : past.IsSteady) (record : ExecutionRecord) :
      record ∈ (recorded retention past).records ↔ IsLast (passed past) record ∧
        ∀ given, past.getLast? = some given → IsYoung retention given.1 record := by
    rw [recorded_records retention fine, List.mem_filter, mem_insertAll_iff_isLast, keepsLast_iff]
  refine ⟨held history steady, recorded_ordered retention history, ?_,
    fun reading record => isYoung_iff⟩
  intro other otherSteady same sameReading
  have young (record : ExecutionRecord) :
      keepsLast retention other record = keepsLast retention history record := by
    have readings (past : Archive.History) : keepsLast retention past record =
        (past.getLast?.map (·.1)).all fun reading => keeps retention reading record := by
      rw [keepsLast, Option.all_map]
    rw [readings, readings, sameReading]
  have records : (recorded retention other).records = (recorded retention history).records := by
    refine records_eq_of_mem_iff fun record => ?_
    rw [held other otherSteady, held history steady, same, ← keepsLast_iff, ← keepsLast_iff, young]
  have kept : (recorded retention other).retention = (recorded retention history).retention := by
    rw [recorded_retention, recorded_retention]
  revert records kept
  generalize recorded retention other = first
  generalize recorded retention history = second
  intro records kept
  cases first
  cases second
  simp_all

def keptRecord (id : Uuid) (second : Int) (name : String) : ExecutionRecord :=
  ⟨id, ⟨4⟩, ⟨1⟩, name, true, none, [], [], 1, ⟨second, 0⟩, .completed⟩

/-- One record comes just in time to be kept, one too late, and one takes another one's place that
is not there any more. -/
def keptHistory : Archive.History :=
  [(⟨300, 0⟩, [keptRecord ⟨6⟩ 60 "exact", keptRecord ⟨7⟩ 100 "first", keptRecord ⟨8⟩ 50 "old"]),
    (⟨390, 0⟩, []), (⟨410, 0⟩, [keptRecord ⟨7⟩ 100 "second", keptRecord ⟨8⟩ 50 "again"])]

theorem keptHistory_retained :
    let archive := recorded 350 keptHistory
    let atOnce : Archive.History := [(⟨410, 0⟩, passed keptHistory)]
    keptHistory.IsSteady ∧ atOnce.IsSteady ∧
      archive.records.map (·.ruleName) = ["exact", "second"] ∧
      keptRecord ⟨7⟩ 100 "second" ∈ archive.records ∧ recorded 350 atOnce = archive := by
  intro archive atOnce
  have steady : keptHistory.IsSteady := ⟨by decide, by decide⟩
  have alsoSteady : atOnce.IsSteady := ⟨by decide, by decide⟩
  obtain ⟨held, -, sameFor, -⟩ := archive_retains 350 steady
  have last : IsLast (passed keptHistory) (keptRecord ⟨7⟩ 100 "second") := by
    refine ⟨(passed keptHistory).take 3, [keptRecord ⟨8⟩ 50 "again"], rfl, by decide⟩
  have young : ∀ given, keptHistory.getLast? = some given →
      IsYoung 350 given.1 (keptRecord ⟨7⟩ 100 "second") := by
    rintro given ⟨⟩ cutoff ⟨⟩
    decide
  exact ⟨steady, alsoSteady, by decide, (held _).mpr ⟨last, young⟩,
    sameFor atOnce alsoSteady rfl rfl⟩

end Rulebook
