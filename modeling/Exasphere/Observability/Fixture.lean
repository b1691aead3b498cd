import Mathlib.Data.Finset.Sort
import Exasphere.Observability.Snapshot

/-!
# Fixtures and their summaries (`observability/root.zig`)

A fixture is a snapshot with a manifest whose tuple is pinned by the support matrix. Whatever the files hold, a fixture
that loads has an approved tuple, one event for each trace line of its snapshot, only events that the tuple enables, and
a summary that counts exactly these events (`loadFixture_sound`).
-/

namespace Exasphere.Observability

open Exasphere.Lib Exasphere.Zig

/-! ## Manifests -/

local instance : LawfulBEq Bytes := inferInstance

def supportMatrixPath : Bytes := utf8 "fixtures/linux-observability/support-matrix.json"
def defaultManifestPath : Bytes := utf8 "fixtures/linux-observability/manifests/tracefs-sched-demo.json"
def supportMatrixSchema : Bytes := utf8 "zig-scheduler/linux-observability-support-matrix"
def fixtureManifestSchema : Bytes := utf8 "zig-scheduler/linux-observability-fixture-manifest"
def approvedFamily : Bytes := utf8 "tracefs-sched-snapshot"
def approvedSnapshotFormatVersion : Bytes := utf8 "tracefs-sched-text-v1"
def approvedScrubPolicyVersion : Bytes := utf8 "linux-observability-scrub-v1"

structure FixtureManifest where
  schema : Bytes
  version : Nat
  fixtureName : Bytes
  sourceClass : Bytes
  rawSnapshotPath : Bytes
  redistributionBasis : Bytes
  observabilityOnlyCaveats : List Bytes
  tuple : Tuple
  deriving DecidableEq, Repr

structure SupportMatrix where
  schema : Bytes
  version : Nat
  approvedTuples : List Tuple
  rejectedFamilies : List Bytes
  deriving DecidableEq, Repr

/-- What the observer reads: the JSON documents, parsed, and the snapshots. -/
structure Files where
  readSupportMatrix : Bytes → Except Error SupportMatrix
  readManifest : Bytes → Except Error FixtureManifest
  readFile : Bytes → Except Error Bytes

section Loading

variable (files : Files)

def loadSupportMatrix (path : Bytes) : Except Error SupportMatrix := do
  let matrix ← files.readSupportMatrix path
  if matrix.schema ≠ supportMatrixSchema ∨ matrix.version ≠ 1 then .error .unsupportedSchema
  else if matrix.approvedTuples.length ≠ 1 then .error .invalidSupportMatrix
  else .ok matrix

def loadManifest (path : Bytes) : Except Error FixtureManifest := do
  let manifest ← files.readManifest path
  if manifest.schema ≠ fixtureManifestSchema ∨ manifest.version ≠ 1 then .error .unsupportedSchema
  else if manifest.observabilityOnlyCaveats.length = 0 then .error .invalidManifest
  else .ok manifest

def validateManifestAgainstMatrix (manifest : FixtureManifest) (matrix : SupportMatrix) : Except Error Unit :=
  if manifest.tuple.family ≠ approvedFamily then .error .unsupportedFamily
  else if manifest.tuple.snapshotFormatVersion ≠ approvedSnapshotFormatVersion then .error .unsupportedTuple
  else if manifest.tuple.scrubPolicyVersion ≠ approvedScrubPolicyVersion then .error .unsupportedTuple
  else if manifest.tuple.family ∈ matrix.rejectedFamilies then .error .unsupportedFamily
  else if manifest.tuple ∈ matrix.approvedTuples then .ok ()
  else .error .unsupportedTuple

end Loading

/-! ## Summaries -/

structure EventCounts where
  schedSwitch : Nat := 0
  schedWakeup : Nat := 0
  schedWakeupNew : Nat := 0
  schedProcessFork : Nat := 0
  schedProcessExit : Nat := 0
  deriving DecidableEq, Repr

def EventCounts.bump (counts : EventCounts) : EventKind → EventCounts
  | .schedSwitch => { counts with schedSwitch := counts.schedSwitch + 1 }
  | .schedWakeup => { counts with schedWakeup := counts.schedWakeup + 1 }
  | .schedWakeupNew => { counts with schedWakeupNew := counts.schedWakeupNew + 1 }
  | .schedProcessFork => { counts with schedProcessFork := counts.schedProcessFork + 1 }
  | .schedProcessExit => { counts with schedProcessExit := counts.schedProcessExit + 1 }

/-- The counter of a kind. -/
def EventCounts.get (counts : EventCounts) : EventKind → Nat
  | .schedSwitch => counts.schedSwitch
  | .schedWakeup => counts.schedWakeup
  | .schedWakeupNew => counts.schedWakeupNew
  | .schedProcessFork => counts.schedProcessFork
  | .schedProcessExit => counts.schedProcessExit

structure ObservabilitySummary (τ : Type) where
  fixtureName : Bytes
  family : Bytes
  kernelRelease : Bytes
  snapshotFormatVersion : Bytes
  scrubPolicyVersion : Bytes
  sourceClass : Bytes
  redistributionBasis : Bytes
  eventCount : Nat
  cpuIds : List Nat
  pidIds : List Nat
  firstTimestamp : τ
  lastTimestamp : τ
  counts : EventCounts

structure LoadedFixture (τ : Type) where
  manifest : FixtureManifest
  snapshotBytes : Bytes
  events : List (Event τ)
  summary : ObservabilitySummary τ

/-- The variables of the loop over the events; a hash map without values is the set of its keys. -/
structure SummaryLoop (τ : Type) where
  counts : EventCounts := {}
  cpuSet : Finset Nat := ∅
  pidSet : Finset Nat := ∅
  firstTimestamp : τ
  lastTimestamp : τ

/-- A pid is put into the set where there is one. -/
def putPid (pids : Finset Nat) : Option Nat → Finset Nat
  | none => pids
  | some pid => insert pid pids

/-- The keys of the map, in ascending order. -/
def sortedKeys (keys : Finset Nat) : List Nat := keys.sort (· ≤ ·)

section Summaries

variable {τ : Type} (clock : Clock τ)

def SummaryLoop.step (s : SummaryLoop τ) (event : Event τ) : SummaryLoop τ where
  counts := s.counts.bump event.kind
  cpuSet := insert event.cpu s.cpuSet
  pidSet := putPid (putPid s.pidSet event.subjectPid) event.relatedPid
  firstTimestamp := clock.min s.firstTimestamp event.timestamp
  lastTimestamp := clock.max s.lastTimestamp event.timestamp

/-- `events[0]` panics without events. -/
def summarizeEvents (manifest : FixtureManifest) (events : List (Event τ)) : Except Error (ObservabilitySummary τ) :=
  match events with
  | [] => .error .indexOutOfBounds
  | first :: _ =>
    let s := events.foldl (SummaryLoop.step clock)
      { firstTimestamp := first.timestamp, lastTimestamp := first.timestamp }
    .ok {
      fixtureName := manifest.fixtureName
      family := manifest.tuple.family
      kernelRelease := manifest.tuple.kernelRelease
      snapshotFormatVersion := manifest.tuple.snapshotFormatVersion
      scrubPolicyVersion := manifest.tuple.scrubPolicyVersion
      sourceClass := manifest.sourceClass
      redistributionBasis := manifest.redistributionBasis
      eventCount := events.length
      cpuIds := sortedKeys s.cpuSet
      pidIds := sortedKeys s.pidSet
      firstTimestamp := s.firstTimestamp
      lastTimestamp := s.lastTimestamp
      counts := s.counts }

def loadFixture (files : Files) (manifestPath : Bytes) : Except Error (LoadedFixture τ) := do
  let supportMatrix ← loadSupportMatrix files supportMatrixPath
  let manifest ← loadManifest files manifestPath
  validateManifestAgainstMatrix manifest supportMatrix
  let snapshotBytes ← files.readFile manifest.rawSnapshotPath
  let events ← parseSnapshot clock manifest.tuple snapshotBytes
  let summary ← summarizeEvents clock manifest events
  .ok { manifest, snapshotBytes, events, summary }

end Summaries

/-! ## What a fixture holds -/

section Sound

variable {τ : Type} {clock : Clock τ} {files : Files}

/-- The pids that an event names. -/
def Event.names (event : Event τ) (pid : Nat) : Prop := event.subjectPid = some pid ∨ event.relatedPid = some pid

@[simp] theorem mem_sortedKeys {keys : Finset Nat} {key : Nat} : key ∈ sortedKeys keys ↔ key ∈ keys :=
  Finset.mem_sort _

theorem sortedKeys_ascending (keys : Finset Nat) : (sortedKeys keys).Pairwise (· < ·) :=
  (Finset.sortedLT_sort keys).pairwise

/-- What the loop knows of the events it is through. -/
structure SummaryLoop.Knows (events : List (Event τ)) (s : SummaryLoop τ) : Prop where
  counts : ∀ kind, s.counts.get kind = events.countP (fun event => decide (event.kind = kind))
  cpus : ∀ cpu, cpu ∈ s.cpuSet ↔ ∃ event ∈ events, event.cpu = cpu
  pids : ∀ pid, pid ∈ s.pidSet ↔ ∃ event ∈ events, event.names pid

theorem EventCounts.get_bump (counts : EventCounts) (kind other : EventKind) :
    (counts.bump kind).get other = counts.get other + if kind = other then 1 else 0 := by
  cases kind <;> cases other <;> rfl

theorem mem_putPid {pids : Finset Nat} {put : Option Nat} {pid : Nat} :
    pid ∈ putPid pids put ↔ pid ∈ pids ∨ put = some pid := by
  cases put with
  | none => simp [putPid]
  | some p => simp [putPid, eq_comm, or_comm]

theorem SummaryLoop.Knows.step {events : List (Event τ)} {event : Event τ} {s : SummaryLoop τ} (h : s.Knows events) :
    (s.step clock event).Knows (events ++ [event]) where
  counts kind := by
    rw [SummaryLoop.step, EventCounts.get_bump, h.counts, List.countP_append]
    simp
  cpus cpu := by
    simp [SummaryLoop.step, h.cpus, or_and_right, exists_or, or_comm, eq_comm]
  pids pid := by
    simp [SummaryLoop.step, mem_putPid, h.pids, Event.names, or_and_right, exists_or, or_assoc]

theorem summaryLoop_knows (events : List (Event τ)) (first : τ) :
    (events.foldl (SummaryLoop.step clock) { firstTimestamp := first, lastTimestamp := first }).Knows events := by
  refine foldl_inv (P := SummaryLoop.Knows) ⟨fun kind => by cases kind <;> rfl, by simp, by simp⟩ ?_
  intro done event rest s _ h
  exact h.step

/-- The summary counts the events. -/
structure ObservabilitySummary.Counts (events : List (Event τ)) (summary : ObservabilitySummary τ) : Prop where
  total : summary.eventCount = events.length
  counts : ∀ kind, summary.counts.get kind = events.countP (fun event => decide (event.kind = kind))
  balance : summary.eventCount = summary.counts.schedSwitch + summary.counts.schedWakeup +
    summary.counts.schedWakeupNew + summary.counts.schedProcessFork + summary.counts.schedProcessExit
  /-- The ids are listed once, in ascending order. -/
  cpus : summary.cpuIds.Pairwise (· < ·) ∧ ∀ cpu, cpu ∈ summary.cpuIds ↔ ∃ event ∈ events, event.cpu = cpu
  pids : summary.pidIds.Pairwise (· < ·) ∧ ∀ pid, pid ∈ summary.pidIds ↔ ∃ event ∈ events, event.names pid

/-- Every event has one of the five kinds. -/
theorem length_eq_sum_countP (events : List (Event τ)) :
    events.length = events.countP (fun event => decide (event.kind = .schedSwitch)) +
      events.countP (fun event => decide (event.kind = .schedWakeup)) +
      events.countP (fun event => decide (event.kind = .schedWakeupNew)) +
      events.countP (fun event => decide (event.kind = .schedProcessFork)) +
      events.countP (fun event => decide (event.kind = .schedProcessExit)) := by
  induction events with
  | nil => rfl
  | cons event events ih =>
    rw [List.length_cons, ih]
    cases h : event.kind <;> simp [h] <;> omega

theorem summarizeEvents_counts {manifest : FixtureManifest} {events : List (Event τ)} {summary : ObservabilitySummary τ}
    (h : summarizeEvents clock manifest events = .ok summary) : summary.Counts events := by
  unfold summarizeEvents at h
  split at h
  · cases h
  next first rest =>
    obtain rfl := Except.ok.inj h
    have hloop : ((first :: rest).foldl (SummaryLoop.step clock) _).Knows (first :: rest) :=
      summaryLoop_knows (first :: rest) first.timestamp
    refine ⟨rfl, hloop.counts, ?_, ⟨sortedKeys_ascending _, fun cpu => mem_sortedKeys.trans (hloop.cpus cpu)⟩,
      ⟨sortedKeys_ascending _, fun pid => mem_sortedKeys.trans (hloop.pids pid)⟩⟩
    have hswitch := hloop.counts .schedSwitch
    have hwakeup := hloop.counts .schedWakeup
    have hwakeupNew := hloop.counts .schedWakeupNew
    have hfork := hloop.counts .schedProcessFork
    have hexit := hloop.counts .schedProcessExit
    simp only [EventCounts.get] at hswitch hwakeup hwakeupNew hfork hexit
    dsimp only
    rw [hswitch, hwakeup, hwakeupNew, hfork, hexit]
    exact length_eq_sum_countP (first :: rest)

/-- A manifest that the support matrix pins. -/
structure FixtureManifest.Approved (files : Files) (manifest : FixtureManifest) : Prop where
  schema : manifest.schema = fixtureManifestSchema ∧ manifest.version = 1
  caveats : manifest.observabilityOnlyCaveats ≠ []
  family : manifest.tuple.family = approvedFamily
  format : manifest.tuple.snapshotFormatVersion = approvedSnapshotFormatVersion
  scrub : manifest.tuple.scrubPolicyVersion = approvedScrubPolicyVersion
  /-- The tuple is the only one of the matrix, and its family is not rejected there. -/
  pinned : ∃ supportMatrix, files.readSupportMatrix supportMatrixPath = .ok supportMatrix ∧
    supportMatrix.schema = supportMatrixSchema ∧ supportMatrix.version = 1 ∧
    supportMatrix.approvedTuples = [manifest.tuple] ∧ approvedFamily ∉ supportMatrix.rejectedFamilies

theorem approved_iff {manifest : FixtureManifest} {path : Bytes} :
    (∃ supportMatrix, loadSupportMatrix files supportMatrixPath = .ok supportMatrix ∧
      loadManifest files path = .ok manifest ∧ validateManifestAgainstMatrix manifest supportMatrix = .ok ()) ↔
      files.readManifest path = .ok manifest ∧ manifest.Approved files := by
  simp only [loadSupportMatrix, loadManifest, validateManifestAgainstMatrix, bind_eq_ok, ite_error_eq_ok, not_or,
    ne_eq, not_not]
  constructor
  · rintro ⟨supportMatrix, ⟨_, hread, ⟨hschema, hversion⟩, hone, hsame⟩, ⟨_, hmanifest, ⟨hm, hv⟩, hcaveats, hsame'⟩,
      hfamily, hformat, hscrub, hrejected, happroved⟩
    obtain rfl := Except.ok.inj hsame
    obtain rfl := Except.ok.inj hsame'
    refine ⟨hmanifest, ⟨hm, hv⟩, by simpa using hcaveats, hfamily, hformat, hscrub, _, hread, hschema, hversion, ?_,
      hfamily ▸ hrejected⟩
    obtain ⟨tuple, htuple⟩ := List.length_eq_one_iff.mp hone
    split_ifs at happroved with hmem
    rw [htuple] at hmem ⊢
    rw [List.mem_singleton.mp hmem]
  · rintro ⟨hmanifest, happroved⟩
    obtain ⟨supportMatrix, hread, hschema, hversion, htuples, hrejected⟩ := happroved.pinned
    refine ⟨supportMatrix, ⟨_, hread, ⟨hschema, hversion⟩, by simp [htuples], rfl⟩,
      ⟨_, hmanifest, happroved.schema, by simpa using happroved.caveats, rfl⟩, happroved.family, happroved.format,
      happroved.scrub, by rwa [happroved.family], ?_⟩
    rw [if_pos (by simp [htuples])]

/-- What a fixture that loads holds. -/
structure LoadedFixture.Sound (clock : Clock τ) (files : Files) (manifestPath : Bytes) (loaded : LoadedFixture τ) :
    Prop where
  manifest : files.readManifest manifestPath = .ok loaded.manifest ∧ loaded.manifest.Approved files
  snapshot : files.readFile loaded.manifest.rawSnapshotPath = .ok loaded.snapshotBytes
  /-- The events are the trace lines, one by one and in order. -/
  lines : List.Forall₂ (fun line event => parseEventLine clock loaded.manifest.tuple line = .ok event)
    (snapshotLines loaded.snapshotBytes) loaded.events
  events : loaded.events ≠ [] ∧ ∀ event ∈ loaded.events, event.Sound loaded.manifest.tuple
  summary : loaded.summary.Counts loaded.events

theorem parseSnapshot_eq_ok {tuple : Tuple} {bytes : Bytes} {events : List (Event τ)} :
    parseSnapshot clock tuple bytes = .ok events ↔ events ≠ [] ∧
      List.Forall₂ (fun line event => parseEventLine clock tuple line = .ok event) (snapshotLines bytes) events := by
  simp only [parseSnapshot, bind_eq_ok, mapM_eq_ok, ite_error_eq_ok, List.isEmpty_iff]
  constructor
  · rintro ⟨_, hlines, hne, hsame⟩
    exact Except.ok.inj hsame ▸ ⟨hne, hlines⟩
  · rintro ⟨hne, hlines⟩
    exact ⟨events, hlines, hne, rfl⟩

theorem forall_of_forall₂ {α β : Type*} {R : α → β → Prop} {P : β → Prop} {l : List α} {l' : List β}
    (h : List.Forall₂ R l l') (hP : ∀ a b, R a b → P b) : ∀ b ∈ l', P b := by
  induction h with
  | nil => simp
  | cons hr _ ih => exact List.forall_mem_cons.mpr ⟨hP _ _ hr, ih⟩

theorem loadFixture_sound {manifestPath : Bytes} {loaded : LoadedFixture τ}
    (h : loadFixture clock files manifestPath = .ok loaded) : loaded.Sound clock files manifestPath := by
  obtain ⟨supportMatrix, hmatrix, h⟩ := bind_eq_ok.mp h
  obtain ⟨manifest, hmanifest, h⟩ := bind_eq_ok.mp h
  obtain ⟨_, hvalidate, h⟩ := bind_eq_ok.mp h
  obtain ⟨snapshotBytes, hread, h⟩ := bind_eq_ok.mp h
  obtain ⟨events, hevents, h⟩ := bind_eq_ok.mp h
  obtain ⟨summary, hsummary, h⟩ := bind_eq_ok.mp h
  obtain rfl := Except.ok.inj h
  obtain ⟨hne, hlines⟩ := parseSnapshot_eq_ok.mp hevents
  exact ⟨approved_iff.mp ⟨supportMatrix, hmatrix, hmanifest, hvalidate⟩, hread, hlines,
    ⟨hne, forall_of_forall₂ hlines fun _ _ hline => (parseEventLine_sound hline).1⟩, summarizeEvents_counts hsummary⟩

/-- **A fixture loads exactly when** its manifest is approved, its snapshot can be read, and the snapshot has a trace
line and none that cannot be parsed. What loads holds the events of these lines, and a summary that counts them. -/
theorem loadFixture_iff (clock : Clock τ) (files : Files) (manifestPath : Bytes) :
    ((∃ loaded, loadFixture clock files manifestPath = .ok loaded) ↔
      ∃ manifest bytes, files.readManifest manifestPath = .ok manifest ∧ manifest.Approved files ∧
        files.readFile manifest.rawSnapshotPath = .ok bytes ∧ snapshotLines bytes ≠ [] ∧
        ∀ line ∈ snapshotLines bytes, ∃ event, parseEventLine clock manifest.tuple line = .ok event) ∧
    ∀ loaded, loadFixture clock files manifestPath = .ok loaded → loaded.Sound clock files manifestPath := by
  refine ⟨⟨?_, ?_⟩, fun loaded h => loadFixture_sound h⟩
  · rintro ⟨loaded, h⟩
    have hs := loadFixture_sound h
    refine ⟨loaded.manifest, loaded.snapshotBytes, hs.manifest.1, hs.manifest.2, hs.snapshot, ?_, ?_⟩
    · intro hnil
      have hlines := hs.lines
      rw [hnil] at hlines
      exact hs.events.1 (List.forall₂_nil_left_iff.mp hlines)
    · exact forall_of_forall₂ hs.lines.flip fun event line hline => ⟨event, hline⟩
  · rintro ⟨manifest, bytes, hread, happroved, hbytes, hne, hlines⟩
    obtain ⟨supportMatrix, hmatrix, hmanifest, hvalidate⟩ := approved_iff.mpr ⟨hread, happroved⟩
    obtain ⟨events, hevents⟩ := mapM_total hlines
    have hevents' := mapM_eq_ok.mp hevents
    have hnonempty : events ≠ [] := by
      rintro rfl
      exact hne (List.forall₂_nil_right_iff.mp hevents')
    have hparse := parseSnapshot_eq_ok.mpr ⟨hnonempty, hevents'⟩
    obtain ⟨summary, hsummary⟩ : ∃ summary, summarizeEvents clock manifest events = .ok summary := by
      obtain ⟨first, rest, rfl⟩ := List.exists_cons_of_ne_nil hnonempty
      exact ⟨_, rfl⟩
    exact ⟨_, by rw [loadFixture, hmatrix, ok_bind, hmanifest, ok_bind, hvalidate, ok_bind, hbytes, ok_bind, hparse,
      ok_bind, hsummary, ok_bind]⟩

end Sound

end Exasphere.Observability
