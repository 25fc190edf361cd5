import Rulebook.Evaluation.Record

/-!
The archive of execution records, in the order of their times and then of their identifiers. Each
time records are added, those older than the retention are dropped.
-/

namespace Rulebook

def ExecutionRecord.order (left right : ExecutionRecord) : Ordering :=
  (compare left.timestamp right.timestamp).then (compare left.id right.id)

structure Archive where
  /-- In ascending order, one record a key. -/
  records : List ExecutionRecord := []
  retention : Duration

namespace Archive

/-- One without records, with a retention in whole seconds as settings have it. -/
def empty (seconds : Nat) : Archive :=
  { retention := seconds }

def insert (record : ExecutionRecord) : List ExecutionRecord → List ExecutionRecord
  | [] => [record]
  | first :: rest =>
    match record.order first with
    | .lt => record :: first :: rest
    | .eq => record :: rest
    | .gt => first :: insert record rest

def dropBefore (cutoff : Instant) (records : List ExecutionRecord) : List ExecutionRecord :=
  records.filter fun record => cutoff.isAtMost record.timestamp

/-- Drops what is older than the retention. Nothing is when there is no instant that long ago. -/
def prune (now : Instant) (archive : Archive) : Archive :=
  match now.minus? archive.retention with
  | some cutoff => { archive with records := dropBefore cutoff archive.records }
  | none => archive

def add (now : Instant) (batch : List ExecutionRecord) (archive : Archive) : Archive :=
  prune now { archive with
    records := batch.foldl (fun records record => insert record records) archive.records }

def between (first last : Instant) (archive : Archive) : List ExecutionRecord :=
  archive.records.filter fun record =>
    first.isAtMost record.timestamp && record.timestamp.isAtMost last

end Archive

end Rulebook
