import Mathlib.Data.List.Induction
import Mathlib.Data.List.Nodup
import Mathlib.Data.List.Pairwise
import Rulebook.Analytics.Archive

/-!
An archive holds what was recorded last under each key, in the one order there is, as far as the
last reading of the clock keeps it. How the records were put into batches does not show.
-/

namespace Rulebook

open Std

theorem Duration.ofSeconds_inj {left right : Nat} :
    ofSeconds left = ofSeconds right ↔ left = right := by
  rw [ofSeconds, ofSeconds, Duration.mk.injEq]
  omega

/-! The order of instants, and of records -/

namespace Instant

variable {left middle right : Instant}

instance : TransOrd Instant :=
  inferInstanceAs (TransCmp (compareLex (compareOn Instant.second) (compareOn Instant.nano)))

theorem eq_of_compare (same : compare left right = .eq) : left = right := by
  obtain ⟨seconds, nanos⟩ := Ordering.then_eq_eq.mp same
  have second : left.second = right.second := Std.compare_eq_iff_eq.mp seconds
  have nano : left.nano = right.nano := Std.compare_eq_iff_eq.mp nanos
  cases left
  cases right
  simp_all

theorem isAtMost_iff : left.isAtMost right = true ↔
    left.second < right.second ∨ (left.second = right.second ∧ left.nano ≤ right.nano) := by
  simp [isAtMost]

theorem isAtMost_trans (first : left.isAtMost middle = true)
    (second : middle.isAtMost right = true) : left.isAtMost right = true := by
  rw [isAtMost_iff] at *
  omega

/-- Whether the clock of a system can show an instant. It knows nothing of leap seconds. -/
def IsReading (instant : Instant) : Prop :=
  instant.nano < 1000000000 ∧ instant.second ≤ latestSecond

instance (instant : Instant) : Decidable instant.IsReading :=
  inferInstanceAs (Decidable (_ ∧ _))

/-- Nanoseconds since the start of 1970. -/
def nanoseconds (instant : Instant) : Int :=
  instant.second * 1000000000 + instant.nano

theorem isRepresentable_iff {second : Int} :
    isRepresentable second = true ↔ earliestSecond ≤ second ∧ second ≤ latestSecond := by
  simp [isRepresentable]

theorem eq_iff_nanoseconds (leftNano : left.nano < 1000000000)
    (rightNano : right.nano < 1000000000) :
    left = right ↔ left.nanoseconds = right.nanoseconds := by
  constructor
  · exact congrArg nanoseconds
  · intro same
    rw [nanoseconds, nanoseconds] at same
    obtain ⟨second, nano⟩ : left.second = right.second ∧ left.nano = right.nano := by omega
    cases left
    cases right
    simp_all

theorem isAtMost_iff_nanoseconds (leftNano : left.nano < 1000000000)
    (rightNano : right.nano < 1000000000) :
    left.isAtMost right = true ↔ left.nanoseconds ≤ right.nanoseconds := by
  rw [isAtMost_iff, nanoseconds, nanoseconds]
  omega

/-- The instant that long before, whether or not the calendar has it. -/
theorem IsReading.minus?_eq (reading : left.IsReading) (duration : Duration) :
    ∃ start : Instant, start.nano < 1000000000 ∧
      start.nanoseconds = left.nanoseconds - duration.nanoseconds ∧
      left.minus? duration = if isRepresentable start.second then some start else none := by
  have nano := reading.1
  have ordinary : left.inLeapSecond = false := by simp [inLeapSecond, nano]
  have parts : duration.nanoseconds = duration.seconds * 1000000000 + duration.nano :=
    (Nat.div_add_mod' duration.nanoseconds 1000000000).symm
  have less : duration.nano < 1000000000 := Nat.mod_lt _ (by decide)
  simp only [minus?, ordinary, Bool.false_eq_true, and_false, if_false]
  split
  next enough =>
    refine ⟨_, ?_, ?_, rfl⟩
    · change left.nano - duration.nano < 1000000000
      omega
    · simp only [nanoseconds]
      omega
  next borrowed =>
    refine ⟨_, ?_, ?_, rfl⟩
    · change left.nano + 1000000000 - duration.nano < 1000000000
      omega
    · simp only [nanoseconds]
      omega

/-- What the clock shows, that long before: there is such an instant unless it is before the
calendar. -/
theorem IsReading.minus?_eq_some_iff (reading : left.IsReading) {duration : Duration} :
    left.minus? duration = some right ↔
      right.nano < 1000000000 ∧ earliestSecond ≤ right.second ∧
        right.nanoseconds = left.nanoseconds - duration.nanoseconds := by
  obtain ⟨start, startNano, startIs, minus⟩ := reading.minus?_eq duration
  rw [minus, Option.ite_none_right_eq_some, Option.some.injEq, isRepresentable_iff]
  constructor
  · rintro ⟨bounds, rfl⟩
    exact ⟨startNano, bounds.1, startIs⟩
  · rintro ⟨rightNano, earliest, rightIs⟩
    obtain rfl := (eq_iff_nanoseconds startNano rightNano).mpr (startIs.trans rightIs.symm)
    refine ⟨⟨earliest, ?_⟩, rfl⟩
    have notLate := reading.2
    have leftNano := reading.1
    rw [nanoseconds, nanoseconds] at startIs
    omega

-- A second and a half before the beginning of a second.
example : (⟨10, 0⟩ : Instant).minus? ⟨1500000000⟩ = some ⟨8, 500000000⟩ := by
  decide

theorem IsReading.exists_minus? (reading : left.IsReading) {duration : Duration}
    (inside : earliestSecond * 1000000000 ≤ left.nanoseconds - duration.nanoseconds) :
    ∃ start, left.minus? duration = some start := by
  obtain ⟨start, startNano, startIs, _⟩ := reading.minus?_eq duration
  refine ⟨start, reading.minus?_eq_some_iff.mpr ⟨startNano, ?_, startIs⟩⟩
  rw [← startIs, nanoseconds] at inside
  omega

theorem IsReading.earlier? (reading : left.IsReading) (seconds : Nat) :
    left.earlier? seconds = if earliestSecond ≤ left.second - seconds then
      some ⟨left.second - seconds, left.nano⟩ else none := by
  have length : (Duration.ofSeconds seconds).nanoseconds = seconds * 1000000000 := rfl
  rw [Instant.earlier?]
  split
  next inside =>
    refine reading.minus?_eq_some_iff.mpr ⟨reading.1, inside, ?_⟩
    simp only [nanoseconds, length]
    omega
  next outside =>
    rw [Option.eq_none_iff_forall_ne_some]
    intro start found
    obtain ⟨nano, earliest, same⟩ := reading.minus?_eq_some_iff.mp found
    have leftNano := reading.1
    rw [nanoseconds, nanoseconds, length] at same
    omega

end Instant

instance : TransOrd Uuid :=
  inferInstanceAs (TransCmp (compareOn fun id : Uuid => id.bits.toNat))

namespace ExecutionRecord

instance : TransCmp ExecutionRecord.order :=
  inferInstanceAs (TransCmp (compareLex (compareOn timestamp) (compareOn id)))

theorem order_self (record : ExecutionRecord) : record.order record = .eq :=
  ReflCmp.compare_self

theorem timestamp_eq_of_order {left right : ExecutionRecord} (same : left.order right = .eq) :
    left.timestamp = right.timestamp :=
  Instant.eq_of_compare (Ordering.then_eq_eq.mp same).1

/-- Each record comes before all that stand behind it. -/
def AreOrdered (records : List ExecutionRecord) : Prop :=
  records.Pairwise fun left right => left.order right = .lt

namespace AreOrdered

variable {records others : List ExecutionRecord}

theorem nodup (ordered : AreOrdered records) : records.Nodup :=
  ordered.imp fun {left right} before same => by
    rw [same, order_self] at before
    exact nomatch before

/-- Records that are in order are the same as soon as there are the same ones. -/
theorem eq_of_mem_iff (ordered : AreOrdered records) (alsoOrdered : AreOrdered others)
    (same : ∀ record, record ∈ records ↔ record ∈ others) : records = others := by
  have perm := (List.perm_ext_iff_of_nodup ordered.nodup alsoOrdered.nodup).mpr same
  refine perm.eq_of_pairwise ?_ ordered alsoOrdered
  intro left right _ _ before after
  rw [← OrientedCmp.gt_iff_lt, before] at after
  exact nomatch after

end AreOrdered

end ExecutionRecord

open ExecutionRecord

/-! Records that are put in -/

namespace Archive

variable {records : List ExecutionRecord}

/-- Of records that all stand behind a new one, none stands before it. -/
theorem filter_behind {record : ExecutionRecord}
    (behind : ∀ other ∈ records, record.order other = .lt) :
    records.filter (fun other => other.order record == .lt) = [] ∧
      records.filter (fun other => record.order other == .lt) = records := by
  constructor
  · refine List.filter_eq_nil_iff.mpr fun other held => ?_
    rw [OrientedCmp.gt_iff_lt.mpr (behind other held)]
    exact nofun
  · refine List.filter_eq_self.mpr fun other held => ?_
    rw [behind other held]
    rfl

/-- A record is put between those before it and those behind it. One of its own key, which is
neither, gives way to it. -/
theorem insert_eq (record : ExecutionRecord) (ordered : AreOrdered records) :
    insert record records =
      records.filter (fun other => other.order record == .lt) ++
        record :: records.filter (fun other => record.order other == .lt) := by
  induction records with
  | nil => rfl
  | cons first rest ih =>
      obtain ⟨before, restOrdered⟩ := List.pairwise_cons.mp ordered
      rw [insert]
      cases place : record.order first with
      | lt =>
          have behind : ∀ other ∈ first :: rest, record.order other = .lt :=
            List.forall_mem_cons.mpr ⟨place, fun other further =>
              TransCmp.lt_trans place (before other further)⟩
          obtain ⟨none, all⟩ := filter_behind behind
          rw [none, all, List.nil_append]
      | eq =>
          obtain ⟨none, all⟩ := filter_behind fun other further =>
            TransCmp.lt_of_eq_of_lt place (before other further)
          simp [place, OrientedCmp.eq_symm place, none, all]
      | gt =>
          simp [place, OrientedCmp.gt_iff_lt.mp place, ih restOrdered]

theorem mem_insert {record other : ExecutionRecord} (ordered : AreOrdered records) :
    other ∈ insert record records ↔
      other = record ∨ (other ∈ records ∧ other.order record ≠ .eq) := by
  have sides : other.order record ≠ .eq ↔
      other.order record = .lt ∨ record.order other = .lt := by
    rw [← OrientedCmp.gt_iff_lt (a := other)]
    cases other.order record <;> decide
  rw [insert_eq record ordered, sides]
  simp only [List.mem_append, List.mem_filter, List.mem_cons, beq_iff_eq]
  tauto

theorem insert_ordered (record : ExecutionRecord) (ordered : AreOrdered records) :
    AreOrdered (insert record records) := by
  rw [insert_eq record ordered]
  refine List.pairwise_append.mpr ⟨ordered.filter _,
    List.pairwise_cons.mpr ⟨?_, ordered.filter _⟩, ?_⟩
  · intro other behind
    exact beq_iff_eq.mp (List.mem_filter.mp behind).2
  · intro earlier before later held
    have first : earlier.order record = .lt := beq_iff_eq.mp (List.mem_filter.mp before).2
    rcases List.mem_cons.mp held with rfl | behind
    · exact first
    · exact TransCmp.lt_trans first (beq_iff_eq.mp (List.mem_filter.mp behind).2)

def insertAll (batch records : List ExecutionRecord) : List ExecutionRecord :=
  batch.foldl (fun records record => insert record records) records

theorem insertAll_ordered (batch : List ExecutionRecord) (ordered : AreOrdered records) :
    AreOrdered (insertAll batch records) := by
  induction batch generalizing records with
  | nil => exact ordered
  | cons record rest ih => exact ih (insert_ordered record ordered)

/-- Whether two records of one key are always the same record. -/
def AreUnambiguous (records : List ExecutionRecord) : Prop :=
  ∀ left ∈ records, ∀ right ∈ records, left.order right = .eq → left = right

theorem AreUnambiguous.of_distinct
    (distinct : records.Pairwise fun left right => left.order right ≠ .eq) :
    AreUnambiguous records := by
  have symmetric : Symm fun left right : ExecutionRecord => left.order right = .eq → left = right :=
    ⟨fun _ _ alike same => (alike (OrientedCmp.eq_symm same)).symm⟩
  have compared : records.Pairwise fun left right => left.order right = .eq → left = right :=
    distinct.imp fun differs same => absurd same differs
  exact fun left held right alsoHeld =>
    List.Pairwise.forall_of_forall (fun _ _ _ => rfl) compared held alsoHeld

theorem mem_insertAll {batch : List ExecutionRecord} (ordered : AreOrdered records)
    (unambiguous : AreUnambiguous (records ++ batch)) {record : ExecutionRecord} :
    record ∈ insertAll batch records ↔ record ∈ records ∨ record ∈ batch := by
  induction batch generalizing records with
  | nil => simp [insertAll]
  | cons first rest ih =>
      have member (other : ExecutionRecord) :
          other ∈ insert first records ↔ other = first ∨ other ∈ records := by
        have only (held : other ∈ records) (same : other.order first = .eq) : other = first :=
          unambiguous other (List.mem_append_left _ held) first
            (List.mem_append_right _ List.mem_cons_self) same
        rw [mem_insert ordered]
        tauto
      have rearranged : AreUnambiguous (insert first records ++ rest) := by
        refine fun left held right alsoHeld => unambiguous left ?_ right ?_
        · simp only [List.mem_append, member, List.mem_cons] at held ⊢
          tauto
        · simp only [List.mem_append, member, List.mem_cons] at alsoHeld ⊢
          tauto
      change record ∈ insertAll rest (insert first records) ↔ _
      rw [ih (insert_ordered first ordered) rearranged, member, List.mem_cons]
      tauto

/-- A test that only looks at keys can be made before a record is put in as well as after. -/
theorem filter_insert {test : ExecutionRecord → Bool}
    (keyed : ∀ left right : ExecutionRecord, left.order right = .eq → test left = test right)
    (record : ExecutionRecord) (ordered : AreOrdered records) :
    (insert record records).filter test =
      if test record then insert record (records.filter test) else records.filter test := by
  have inserted : AreOrdered ((insert record records).filter test) :=
    (insert_ordered record ordered).filter test
  have filtered : AreOrdered (records.filter test) := ordered.filter test
  split
  next passed =>
    refine inserted.eq_of_mem_iff (insert_ordered record filtered) fun other => ?_
    rw [List.mem_filter, mem_insert ordered, mem_insert filtered, List.mem_filter]
    constructor
    · rintro ⟨rfl | ⟨held, differs⟩, kept⟩
      · exact .inl rfl
      · exact .inr ⟨⟨held, kept⟩, differs⟩
    · rintro (rfl | ⟨⟨held, kept⟩, differs⟩)
      · exact ⟨.inl rfl, passed⟩
      · exact ⟨.inr ⟨held, differs⟩, kept⟩
  next failed =>
    refine inserted.eq_of_mem_iff filtered fun other => ?_
    have differs (kept : test other = true) : other.order record ≠ .eq := fun same =>
      failed (keyed other record same ▸ kept)
    rw [List.mem_filter, mem_insert ordered, List.mem_filter]
    constructor
    · rintro ⟨rfl | ⟨held, -⟩, kept⟩
      · exact absurd kept failed
      · exact ⟨held, kept⟩
    · rintro ⟨held, kept⟩
      exact ⟨.inr ⟨held, differs kept⟩, kept⟩

theorem filter_insertAll {test : ExecutionRecord → Bool}
    (keyed : ∀ left right : ExecutionRecord, left.order right = .eq → test left = test right)
    (batch : List ExecutionRecord) (ordered : AreOrdered records) :
    (insertAll batch records).filter test =
      insertAll (batch.filter test) (records.filter test) := by
  induction batch generalizing records with
  | nil => rfl
  | cons record rest ih =>
      change (insertAll rest (insert record records)).filter test = _
      rw [ih (insert_ordered record ordered), filter_insert keyed record ordered, List.filter_cons]
      split <;> rfl

/-! Histories -/

/-- What was recorded, a batch at each reading of the clock. -/
abbrev History := List (Instant × List ExecutionRecord)

def recorded (retention : Duration) (history : Archive.History) : Archive :=
  history.foldl (fun archive given => archive.add given.1 given.2) { retention }

def passed (history : Archive.History) : List ExecutionRecord :=
  history.flatMap (·.2)

/-- Whether a record is young enough at some reading of the clock. -/
def keeps (retention : Duration) (reading : Instant) (record : ExecutionRecord) : Bool :=
  match reading.minus? retention with
  | some cutoff => cutoff.isAtMost record.timestamp
  | none => true

theorem prune_records (archive : Archive) (now : Instant) :
    (archive.prune now).records = archive.records.filter (keeps archive.retention now) := by
  unfold prune keeps
  cases now.minus? archive.retention with
  | some cutoff => rfl
  | none => exact (List.filter_eq_self.mpr fun _ _ => rfl).symm

theorem keeps_keyed (retention : Duration) (reading : Instant) (left right : ExecutionRecord)
    (same : left.order right = .eq) :
    keeps retention reading left = keeps retention reading right := by
  rw [keeps, keeps, timestamp_eq_of_order same]

/-- What a clock keeps that does not go back, it kept all along. -/
theorem keeps_of_later {retention : Duration} {earlier later : Instant}
    (reading : earlier.IsReading) (laterReading : later.IsReading)
    (steady : earlier.isAtMost later = true)
    {record : ExecutionRecord} (kept : keeps retention later record = true) :
    keeps retention earlier record = true := by
  have notBefore := (Instant.isAtMost_iff_nanoseconds reading.1 laterReading.1).mp steady
  rw [keeps] at kept ⊢
  cases dropping : earlier.minus? retention with
  | none => rfl
  | some cutoff =>
      obtain ⟨nano, earliest, same⟩ := reading.minus?_eq_some_iff.mp dropping
      obtain ⟨laterCutoff, laterDropping⟩ : ∃ start, later.minus? retention = some start := by
        refine laterReading.exists_minus? ?_
        rw [Instant.nanoseconds] at same
        omega
      obtain ⟨laterNano, _, laterSame⟩ := laterReading.minus?_eq_some_iff.mp laterDropping
      rw [laterDropping] at kept
      refine Instant.isAtMost_trans ?_ kept
      rw [Instant.isAtMost_iff_nanoseconds nano laterNano]
      omega

/-- Readings of a clock that does not go back. -/
structure History.IsSteady (history : History) : Prop where
  readings : ∀ given ∈ history, given.1.IsReading
  steady : history.Pairwise fun earlier later => earlier.1.isAtMost later.1 = true

theorem recorded_append (retention : Duration) (history : Archive.History) (now : Instant)
    (batch : List ExecutionRecord) :
    recorded retention (history ++ [(now, batch)]) =
      (recorded retention history).add now batch := by
  simp [recorded]

theorem recorded_retention (retention : Duration) (history : Archive.History) :
    (recorded retention history).retention = retention := by
  induction history using List.reverseRecOn with
  | nil => rfl
  | append_singleton earlier given ih =>
      rw [recorded_append, add, prune]
      split <;> exact ih

theorem recorded_ordered (retention : Duration) (history : Archive.History) :
    AreOrdered (recorded retention history).records := by
  induction history using List.reverseRecOn with
  | nil => exact List.Pairwise.nil
  | append_singleton earlier given ih =>
      rw [recorded_append, add, prune_records]
      exact (insertAll_ordered given.2 ih).filter _

/-- Whether the last reading of the clock, if there is one, keeps a record. -/
def keepsLast (retention : Duration) (history : Archive.History) (record : ExecutionRecord) :
    Bool :=
  history.getLast?.all fun given => keeps retention given.1 record

theorem keepsLast_append (retention : Duration) (history : Archive.History)
    (given : Instant × List ExecutionRecord) :
    keepsLast retention (history ++ [given]) = keeps retention given.1 := by
  funext record
  simp [keepsLast]

namespace History.IsSteady

variable {earlier : Archive.History} {given : Instant × List ExecutionRecord}

theorem before (steady : IsSteady (earlier ++ [given])) : earlier.IsSteady where
  readings other held := steady.readings other (List.mem_append_left _ held)
  steady := (List.pairwise_append.mp steady.steady).1

theorem keepsLast_of_later {retention : Duration} (steady : IsSteady (earlier ++ [given]))
    {record : ExecutionRecord} (kept : keeps retention given.1 record = true) :
    keepsLast retention earlier record = true := by
  refine (Option.all_eq_true _ _).mpr fun last there => ?_
  have held := List.mem_of_getLast? there
  have further : given ∈ [given] := List.mem_singleton_self _
  exact keeps_of_later (steady.readings last (List.mem_append_left _ held))
    (steady.readings given (List.mem_append_right _ further))
    ((List.pairwise_append.mp steady.steady).2.2 last held given further) kept

end History.IsSteady

/-- As long as the clock does not go back, only its last reading counts. -/
theorem recorded_records (retention : Duration) {history : Archive.History}
    (steady : history.IsSteady) :
    (recorded retention history).records =
      (insertAll (passed history) []).filter (keepsLast retention history) := by
  induction history using List.reverseRecOn with
  | nil => rfl
  | append_singleton earlier given ih =>
      have held := ih steady.before
      have keyed := keeps_keyed retention given.1
      have start : AreOrdered (insertAll (passed earlier) []) :=
        insertAll_ordered _ List.Pairwise.nil
      have kept : (recorded retention earlier).records.filter (keeps retention given.1) =
          (insertAll (passed earlier) []).filter (keeps retention given.1) := by
        rw [held, List.filter_filter]
        refine List.filter_congr fun record _ => ?_
        cases keeping : keeps retention given.1 record with
        | true => rw [steady.keepsLast_of_later keeping, Bool.and_true]
        | false => rfl
      calc (recorded retention (earlier ++ [given])).records
          = (insertAll given.2 (recorded retention earlier).records).filter
              (keeps retention given.1) := by
            rw [recorded_append, add, prune_records, recorded_retention]
            rfl
        _ = insertAll (given.2.filter (keeps retention given.1))
              ((insertAll (passed earlier) []).filter (keeps retention given.1)) := by
            rw [filter_insertAll keyed _ (recorded_ordered retention earlier), kept]
        _ = (insertAll (passed (earlier ++ [given])) []).filter
              (keepsLast retention (earlier ++ [given])) := by
            rw [← filter_insertAll keyed _ start, keepsLast_append]
            simp [passed, insertAll]

theorem mem_recorded (retention : Duration) {history : Archive.History} (steady : history.IsSteady)
    (unambiguous : AreUnambiguous (passed history)) {record : ExecutionRecord} :
    record ∈ (recorded retention history).records ↔
      record ∈ passed history ∧ keepsLast retention history record = true := by
  rw [recorded_records retention steady, List.mem_filter,
    mem_insertAll List.Pairwise.nil (by simpa using unambiguous)]
  simp

/-- Which records an archive holds says all about them. -/
theorem records_eq_of_mem_iff {retention otherRetention : Duration}
    {history other : Archive.History}
    (same : ∀ record, record ∈ (recorded retention history).records ↔
      record ∈ (recorded otherRetention other).records) :
    (recorded retention history).records = (recorded otherRetention other).records :=
  (recorded_ordered retention history).eq_of_mem_iff (recorded_ordered otherRetention other) same

end Archive

end Rulebook
