import Rulebook.Engine
import Rulebook.Proofs.Analytics.Retention
import Rulebook.Proofs.Analytics.Span
import Rulebook.Proofs.Evaluation.Completion

/-!
How long a record lives that is put into an archive in time: as many hours as the settings say, if
the seconds of these hours fit into the word that they are computed in. If they do not, less may be
left of them than was asked for.
-/

namespace Rulebook

open Instant ExecutionRecord

/-- Whether a record is less than so many hours old: that long after it, the reading is not yet
due. -/
def ExecutionRecord.IsYounger (hours : Nat) (reading : Instant) (record : ExecutionRecord) : Prop :=
  (record.timestamp.later (hours * 3600)).isAtMost reading = false

instance (hours : Nat) (reading : Instant) (record : ExecutionRecord) :
    Decidable (record.IsYounger hours reading) :=
  inferInstanceAs (Decidable (_ = false))

/-- Outside leap seconds this is a matter of nanoseconds. -/
theorem ExecutionRecord.isYounger_iff {hours : Nat} {reading : Instant} {record : ExecutionRecord}
    (ordinary : record.timestamp.IsOrdinary) (isReading : reading.IsReading) :
    record.IsYounger hours reading ↔
      reading.nanoseconds - record.timestamp.nanoseconds < hours * 3600 * 1000000000 := by
  have nano := ordinary.nano
  have readingNano := isReading.1
  rw [IsYounger, ← Bool.not_eq_true, isAtMost_iff, nanoseconds, nanoseconds]
  simp only [later]
  omega

namespace Archive

variable {hours seconds : Nat} {retention : Duration} {archive : Archive}
  {record latest : ExecutionRecord} {records batch : List ExecutionRecord} {now reading : Instant}

def Holds (archive : Archive) (record : ExecutionRecord) : Prop :=
  ∃ held ∈ archive.records, held.SameKey record

/-- No call that is made while a record is less than so many hours old drops it, neither the one
that puts it in nor a later one. Another record may take its place. -/
structure Honours (hours : Nat) (retention : Duration) : Prop where
  put : ∀ (earlier : Archive.History) (given : Instant × List ExecutionRecord)
    (record : ExecutionRecord), given.1.IsReading → record.IsYounger hours given.1 →
    record ∈ given.2 → (recorded retention (earlier ++ [given])).Holds record
  kept : ∀ (earlier : Archive.History) (given : Instant × List ExecutionRecord)
    (record : ExecutionRecord), given.1.IsReading → record.IsYounger hours given.1 →
    (recorded retention earlier).Holds record →
    (recorded retention (earlier ++ [given])).Holds record

/-! What is put in, and what is dropped -/

theorem holds_insert (ordered : AreOrdered records)
    (held : record = latest ∨ ∃ held ∈ records, held.SameKey record) :
    ∃ held ∈ insert latest records, held.SameKey record := by
  by_cases replaced : latest.SameKey record
  · exact ⟨latest, (mem_insert ordered).mpr (.inl rfl), replaced⟩
  · rcases held with rfl | ⟨held, member, same⟩
    · exact absurd ⟨rfl, rfl⟩ replaced
    · refine ⟨held, (mem_insert ordered).mpr (.inr ⟨member, fun equal => replaced ?_⟩), same⟩
      obtain ⟨times, ids⟩ := order_eq_iff.mp equal
      exact ⟨times.symm.trans same.1, ids.symm.trans same.2⟩

theorem holds_insertAll (ordered : AreOrdered records)
    (held : record ∈ batch ∨ ∃ held ∈ records, held.SameKey record) :
    ∃ held ∈ insertAll batch records, held.SameKey record := by
  induction batch generalizing records with
  | nil => exact held.resolve_left fun member => nomatch member
  | cons first rest ih =>
      refine ih (insert_ordered first ordered) ?_
      rcases held with member | held
      · rcases List.mem_cons.mp member with same | behind
        · exact .inr (holds_insert ordered (.inl same))
        · exact .inl behind
      · exact .inr (holds_insert ordered (.inr held))

theorem holds_add (ordered : AreOrdered archive.records)
    (held : record ∈ batch ∨ archive.Holds record)
    (kept : keeps archive.retention now record = true) : (archive.add now batch).Holds record := by
  obtain ⟨other, member, same⟩ := holds_insertAll ordered held
  refine ⟨other, ?_, same⟩
  rw [add, prune_records]
  refine List.mem_filter.mpr ⟨member, ?_⟩
  rw [keeps_keyed _ _ other record (order_eq_iff.mpr same)]
  exact kept

theorem honours_of_keeps (kept : ∀ reading record, reading.IsReading →
    record.IsYounger hours reading → keeps retention reading record = true) :
    Honours hours retention := by
  have step (earlier : Archive.History) (given : Instant × List ExecutionRecord)
      (record : ExecutionRecord) (isReading : given.1.IsReading)
      (young : record.IsYounger hours given.1)
      (held : record ∈ given.2 ∨ (recorded retention earlier).Holds record) :
      (recorded retention (earlier ++ [given])).Holds record := by
    rw [recorded_append]
    refine holds_add (recorded_ordered retention earlier) held ?_
    rw [recorded_retention]
    exact kept _ _ isReading young
  exact ⟨fun earlier given record isReading young put =>
      step earlier given record isReading young (.inl put),
    fun earlier given record isReading young held =>
      step earlier given record isReading young (.inr held)⟩

theorem Honours.throughout (honours : Honours hours retention) {earlier later : Archive.History}
    {given : Instant × List ExecutionRecord} (put : record ∈ given.2)
    (young : ∀ call ∈ given :: later, call.1.IsReading ∧ record.IsYounger hours call.1) :
    (recorded retention (earlier ++ given :: later)).Holds record := by
  induction later using List.reverseRecOn with
  | nil =>
      obtain ⟨isReading, inTime⟩ := young given List.mem_cons_self
      exact honours.put earlier given record isReading inTime put
  | append_singleton later call ih =>
      obtain ⟨isReading, inTime⟩ := young call (by simp)
      have before : (recorded retention (earlier ++ given :: later)).Holds record :=
        ih fun other held => young other (List.mem_append_left [call] held)
      have whole : earlier ++ given :: (later ++ [call]) = (earlier ++ given :: later) ++ [call] := by
        simp
      rw [whole]
      exact honours.kept _ call record isReading inTime before

/-! What the clock can reach -/

theorem keeps_of_isYounger (isReading : reading.IsReading)
    (young : record.IsYounger hours reading) :
    keeps (.ofSeconds (hours * 3600)) reading record = true := by
  refine keeps_iff.mpr fun cutoff found => ?_
  change reading.earlier? (hours * 3600) = some cutoff at found
  rw [isReading.earlier?, Option.ite_none_right_eq_some, Option.some.injEq] at found
  obtain ⟨_, rfl⟩ := found
  rw [IsYounger, ← Bool.not_eq_true, isAtMost_iff] at young
  rw [isAtMost_iff]
  simp only [later] at young ⊢
  omega

theorem minus?_of_vast (vast : latestSecond - earliestSecond < seconds)
    (isReading : reading.IsReading) : reading.minus? (.ofSeconds seconds) = none := by
  change reading.earlier? seconds = none
  rw [isReading.earlier?, if_neg]
  have notLate := isReading.2
  omega

theorem not_honours (reached : (seconds : Int) ≤ latestSecond - earliestSecond)
    (less : seconds < hours * 3600) : ¬ Honours hours (.ofSeconds seconds) := by
  intro honours
  -- A record just older than the retention, found by the last reading that there is.
  let reading : Instant := ⟨latestSecond, 1⟩
  let record : ExecutionRecord :=
    ⟨⟨0⟩, ⟨0⟩, ⟨0⟩, "", true, none, [], [], 0, ⟨latestSecond - seconds, 0⟩, .completed⟩
  have isReading : reading.IsReading := ⟨by decide, le_refl _⟩
  have young : record.IsYounger hours reading := by
    rw [IsYounger, ← Bool.not_eq_true, isAtMost_iff]
    change ¬ (latestSecond - seconds + ((hours * 3600 : Nat) : Int) < latestSecond ∨
      (latestSecond - seconds + ((hours * 3600 : Nat) : Int) = latestSecond ∧ 0 ≤ 1))
    omega
  have cutoff : reading.minus? (.ofSeconds seconds) = some ⟨latestSecond - seconds, 1⟩ := by
    change reading.earlier? seconds = _
    rw [isReading.earlier?, if_pos]
    change earliestSecond ≤ latestSecond - seconds
    omega
  obtain ⟨held, member, same⟩ :=
    honours.put [] (reading, [record]) record isReading young List.mem_cons_self
  have added : (recorded (.ofSeconds seconds) ([] ++ [(reading, [record])])).records =
      (insertAll [record] []).filter (keeps (.ofSeconds seconds) reading) := by
    rw [recorded_append, add, prune_records]
    rfl
  rw [added] at member
  have kept := (List.mem_filter.mp member).2
  rw [keeps, cutoff, same.1] at kept
  have notAfter := isAtMost_iff.mp kept
  simp [record] at notAfter

end Archive

open Archive

/-- The hours of the settings are what the archive of a new engine keeps records for if and only if
their seconds fit into a word. They are honoured just then, or if what is left of them in the word
is still longer than the calendar, and so a record is held as long as calls are made in time. Hours
that fit, but are longer than the calendar, mean that nothing is ever dropped. Outside leap seconds,
in time is less than so many seconds after the time of the record. -/
theorem retention_honoured_iff {World : Type} (platform : Platform World)
    (settings : EngineSettings) (world : World) :
    let archive := (Engine.create platform settings world).archive
    let seconds := settings.retentionHours * 3600
    (archive.retention = seconds ↔ seconds < twoTo 64) ∧
      (Honours settings.retentionHours archive.retention ↔
        seconds < twoTo 64 ∨ latestSecond - earliestSecond < ((seconds % twoTo 64 : Nat) : Int)) ∧
      (seconds < twoTo 64 → ∀ (earlier later : Archive.History)
        (given : Instant × List ExecutionRecord) (record : ExecutionRecord), record ∈ given.2 →
        (∀ call ∈ given :: later,
          call.1.IsReading ∧ record.IsYounger settings.retentionHours call.1) →
        (recorded archive.retention (earlier ++ given :: later)).Holds record) ∧
      (seconds < twoTo 64 → latestSecond - earliestSecond < (seconds : Int) →
        ∀ history now, now.IsReading →
          (recorded archive.retention history).prune now = recorded archive.retention history) ∧
      ∀ (record : ExecutionRecord) (reading : Instant), record.timestamp.IsOrdinary →
        reading.IsReading → (record.IsYounger settings.retentionHours reading ↔
          reading.nanoseconds - record.timestamp.nanoseconds < seconds * 1000000000) := by
  intro archive seconds
  have word : 0 < twoTo 64 := by decide
  have retention : archive.retention = .ofSeconds (seconds % twoTo 64) := rfl
  have honoured : Honours settings.retentionHours archive.retention ↔
      seconds < twoTo 64 ∨ latestSecond - earliestSecond < ((seconds % twoTo 64 : Nat) : Int) := by
    rw [retention]
    constructor
    · intro honours
      by_cases fits : seconds < twoTo 64
      · exact .inl fits
      · refine .inr (Int.not_le.mp fun reached => not_honours reached ?_ honours)
        have below := Nat.mod_lt seconds word
        change seconds % twoTo 64 < seconds
        omega
    · rintro (fits | vast)
      · rw [Nat.mod_eq_of_lt fits]
        exact honours_of_keeps fun reading record => keeps_of_isYounger
      · refine honours_of_keeps fun reading record isReading _ => ?_
        rw [keeps, minus?_of_vast vast isReading]
  refine ⟨?_, honoured, ?_, ?_, fun record reading => isYounger_iff⟩
  · rw [retention, Duration.ofSeconds_inj]
    constructor
    · intro whole
      rw [← whole]
      exact Nat.mod_lt _ word
    · exact Nat.mod_eq_of_lt
  · intro fits earlier later given record put young
    exact (honoured.mpr (.inl fits)).throughout put young
  · intro fits vast history now isReading
    rw [prune, recorded_retention, retention, Nat.mod_eq_of_lt fits,
      minus?_of_vast vast isReading]

theorem week_honoured :
    let settings : EngineSettings := {}
    let archive := (Engine.create tickingEvaluator.platform settings 0).archive
    archive.retention = 604800 ∧ Honours 168 archive.retention := by
  intro settings archive
  obtain ⟨_, honoured, _⟩ := retention_honoured_iff tickingEvaluator.platform settings 0
  exact ⟨by decide, honoured.mpr (.inl (by decide))⟩

/-- Of these hours the word leaves nothing, and a record is dropped by the very call that puts it
in, a microsecond after its time. -/
theorem endless_retention_drops :
    let settings : EngineSettings := { retentionHours := 1152921504606846976 }
    let archive := (Engine.create tickingEvaluator.platform settings 0).archive
    let record := keptRecord ⟨5⟩ 100 "new"
    let reading : Instant := ⟨100, 1000⟩
    settings.retentionHours < twoTo 64 ∧ archive.retention = 0 ∧ reading.IsReading ∧
      record.IsYounger settings.retentionHours reading ∧
      (archive.add reading [record]).records.length = 0 ∧
      ¬ Honours settings.retentionHours archive.retention := by
  intro settings archive record reading
  refine ⟨by decide, by decide, by decide, by decide, by decide, ?_⟩
  exact not_honours (by decide) (by decide)

end Rulebook
