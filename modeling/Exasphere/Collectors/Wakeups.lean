import Exasphere.Lib.Sequence

/-!
# Wakeup correlation (`src/sched/collector.cpp`)

The scheduler collector keeps the wakeups it has seen and marks the first one that a context switch answers within the
correlation window. Each new wakeup prunes the list: marked wakeups go, and an unmarked one that is older than the
window is counted as unnecessary.

`Ledger` is the same collector on numbered wakeups, with the wakeups behind its counters: erasing the numbers gives the
collector (`ledger_collector`). The ledger accounts for every wakeup once (`wakeup_conservation`). `Reference` forgets
nothing; with an ordered clock the collector answers the same switches (`pruning_transparent`).
-/

namespace Exasphere.Collectors

open Exasphere.Lib

structure WakeupRecord where
  tsNs : UInt64
  pid : Int32
  targetCpu : Int32
  matched : Bool := false
  deriving DecidableEq, Repr

structure SchedCollector where
  correlationWindowNs : UInt64 := 1000000
  pendingWakeups : List WakeupRecord := []
  unnecessaryWakeups : UInt64 := 0
  correlatedWakeups : UInt64 := 0
  wakeups : UInt64 := 0
  deriving DecidableEq, Repr

inductive SchedCall
  | recordWakeup (tsNs : UInt64) (pid targetCpu : Int32)
  | recordSwitch (tsNs : UInt64) (cpu nextPid : Int32)
  deriving DecidableEq, Repr

/-- A call, or a change of the window. -/
inductive SchedOp
  | call (c : SchedCall)
  | setCorrelationWindowNs (ns : UInt64)
  deriving DecidableEq, Repr

def SchedCall.tsNs : SchedCall → UInt64
  | .recordWakeup tsNs _ _ => tsNs
  | .recordSwitch tsNs _ _ => tsNs

/-! ## The collector -/

/-- The oldest time at which an unmatched wakeup is kept. -/
def cutoff (window tsNs : UInt64) : UInt64 :=
  if tsNs > window then tsNs - window else 0

def expired (cutoff : UInt64) (w : WakeupRecord) : Bool :=
  !w.matched && decide (w.tsNs < cutoff)

/-- The predicate of the `remove_if`, with the counter it increments. -/
def prune (cutoff unnecessary : UInt64) (w : WakeupRecord) : UInt64 × Bool :=
  if expired cutoff w then (unnecessary + 1, true) else (unnecessary, w.matched)

/-- The condition under which a switch answers a wakeup. -/
def correlates (window tsNs : UInt64) (cpu nextPid : Int32) (w : WakeupRecord) : Bool :=
  !w.matched && decide (w.pid = nextPid ∧ w.targetCpu = cpu ∧ tsNs ≥ w.tsNs ∧ tsNs - w.tsNs ≤ window)

def WakeupRecord.mark (w : WakeupRecord) : WakeupRecord :=
  { w with matched := true }

namespace SchedCollector

def recordWakeup (c : SchedCollector) (tsNs : UInt64) (pid targetCpu : Int32) : SchedCollector :=
  let pending := c.pendingWakeups ++ [⟨tsNs, pid, targetCpu, false⟩]
  let left := removeIf (prune (cutoff c.correlationWindowNs tsNs)) c.unnecessaryWakeups pending
  { c with wakeups := c.wakeups + 1, pendingWakeups := left.2, unnecessaryWakeups := left.1 }

def recordSwitch (c : SchedCollector) (tsNs : UInt64) (cpu nextPid : Int32) : SchedCollector :=
  match updateFirst (correlates c.correlationWindowNs tsNs cpu nextPid) WakeupRecord.mark c.pendingWakeups with
  | none => c
  | some r => { c with pendingWakeups := r.2, correlatedWakeups := c.correlatedWakeups + 1 }

def step (c : SchedCollector) : SchedOp → SchedCollector
  | .call (.recordWakeup tsNs pid targetCpu) => c.recordWakeup tsNs pid targetCpu
  | .call (.recordSwitch tsNs cpu nextPid) => c.recordSwitch tsNs cpu nextPid
  | .setCorrelationWindowNs ns => { c with correlationWindowNs := ns }

/-- A new collector with the given window, after the operations. -/
def run (window : UInt64) (ops : List SchedOp) : SchedCollector :=
  ops.foldl step { correlationWindowNs := window }

end SchedCollector

/-! ## Numbered wakeups -/

/-- A wakeup with its number in the order of recording. -/
abbrev Entry := WakeupRecord × Nat

/-- The collector on numbered wakeups: in the place of each counter stand the wakeups it has counted. -/
structure Ledger where
  window : UInt64
  pending : List Entry := []
  unnecessary : List Entry := []
  correlated : List Entry := []
  recorded : Nat := 0
  deriving DecidableEq, Repr

namespace Ledger

def prune (cutoff : UInt64) (unnecessary : List Entry) (e : Entry) : List Entry × Bool :=
  if expired cutoff e.1 then (unnecessary ++ [e], true) else (unnecessary, e.1.matched)

def mark (e : Entry) : Entry :=
  (e.1.mark, e.2)

def recordWakeup (l : Ledger) (tsNs : UInt64) (pid targetCpu : Int32) : Ledger :=
  let pending := l.pending ++ [(⟨tsNs, pid, targetCpu, false⟩, l.recorded)]
  let left := removeIf (prune (cutoff l.window tsNs)) l.unnecessary pending
  { l with recorded := l.recorded + 1, pending := left.2, unnecessary := left.1 }

def recordSwitch (l : Ledger) (tsNs : UInt64) (cpu nextPid : Int32) : Ledger :=
  match updateFirst (fun e => correlates l.window tsNs cpu nextPid e.1) mark l.pending with
  | none => l
  | some r => { l with pending := r.2, correlated := l.correlated ++ [r.1] }

def step (l : Ledger) : SchedOp → Ledger
  | .call (.recordWakeup tsNs pid targetCpu) => l.recordWakeup tsNs pid targetCpu
  | .call (.recordSwitch tsNs cpu nextPid) => l.recordSwitch tsNs cpu nextPid
  | .setCorrelationWindowNs ns => { l with window := ns }

def run (window : UInt64) (ops : List SchedOp) : Ledger :=
  ops.foldl step { window := window }

/-- The collector of a ledger: the numbers are erased and the lists are counted. -/
def collector (l : Ledger) : SchedCollector where
  correlationWindowNs := l.window
  pendingWakeups := l.pending.map Prod.fst
  unnecessaryWakeups := UInt64.ofNat l.unnecessary.length
  correlatedWakeups := UInt64.ofNat l.correlated.length
  wakeups := UInt64.ofNat l.recorded

end Ledger

theorem ofNat_succ (n : Nat) : UInt64.ofNat (n + 1) = UInt64.ofNat n + 1 := by
  rw [UInt64.ofNat_add]
  rfl

theorem recordWakeup_collector (l : Ledger) (tsNs : UInt64) (pid targetCpu : Int32) :
    (l.recordWakeup tsNs pid targetCpu).collector = l.collector.recordWakeup tsNs pid targetCpu := by
  have hprune : ∀ (s : List Entry) (e : Entry), prune (cutoff l.window tsNs) (UInt64.ofNat s.length) e.1 =
      (UInt64.ofNat (Ledger.prune (cutoff l.window tsNs) s e).1.length,
        (Ledger.prune (cutoff l.window tsNs) s e).2) := by
    intro s e
    unfold prune Ledger.prune
    split
    · rw [List.length_append, List.length_singleton, ofNat_succ]
    · rfl
  have hmap := removeIf_map (g := fun s : List Entry => UInt64.ofNat s.length) (f := Prod.fst) hprune l.unnecessary
    (l.pending ++ [(⟨tsNs, pid, targetCpu, false⟩, l.recorded)])
  rw [List.map_append, List.map_singleton] at hmap
  simp only [SchedCollector.recordWakeup, Ledger.recordWakeup, Ledger.collector, hmap, ofNat_succ]

theorem recordSwitch_collector (l : Ledger) (tsNs : UInt64) (cpu nextPid : Int32) :
    (l.recordSwitch tsNs cpu nextPid).collector = l.collector.recordSwitch tsNs cpu nextPid := by
  have hmark : ∀ e : Entry, WakeupRecord.mark e.1 = (Ledger.mark e).1 := fun _ => rfl
  have hmap := updateFirst_map (p := correlates l.window tsNs cpu nextPid) (fun _ => rfl) hmark l.pending
  simp only [SchedCollector.recordSwitch, Ledger.recordSwitch, Ledger.collector, hmap]
  cases updateFirst (fun e : Entry => correlates l.window tsNs cpu nextPid e.1) Ledger.mark l.pending with
  | none => rfl
  | some r => simp [ofNat_succ]

/-- Erasing the numbers of a run gives the run of the collector. -/
theorem ledger_collector (window : UInt64) (ops : List SchedOp) :
    (Ledger.run window ops).collector = SchedCollector.run window ops := by
  have hrun : ∀ l : Ledger, (ops.foldl Ledger.step l).collector = ops.foldl SchedCollector.step l.collector := by
    induction ops with
    | nil => exact fun _ => rfl
    | cons op ops ih =>
      intro l
      rw [List.foldl_cons, List.foldl_cons, ih]
      congr 1
      cases op with
      | call c =>
        cases c with
        | recordWakeup tsNs pid targetCpu => exact recordWakeup_collector l tsNs pid targetCpu
        | recordSwitch tsNs cpu nextPid => exact recordSwitch_collector l tsNs cpu nextPid
      | setCorrelationWindowNs ns => rfl
  exact hrun { window := window }

/-! ## Every wakeup is counted once -/

section Balance

def SchedOp.wakeup : SchedOp → Option WakeupRecord
  | .call (.recordWakeup tsNs pid targetCpu) => some ⟨tsNs, pid, targetCpu, false⟩
  | .call (.recordSwitch _ _ _) => none
  | .setCorrelationWindowNs _ => none

/-- The wakeups that are recorded, in order. -/
def wakeupsOf (ops : List SchedOp) : List WakeupRecord :=
  ops.filterMap SchedOp.wakeup

def unmatched (e : Entry) : Bool :=
  !e.1.matched

/-- Each of the wakeups `ws` is correlated, unnecessary, or pending and unmatched. -/
structure Balanced (l : Ledger) (ws : List WakeupRecord) : Prop where
  recorded : l.recorded = ws.length
  perm : (l.correlated ++ l.unnecessary ++ l.pending.filter unmatched).Perm ws.zipIdx

variable {l : Ledger} {ws : List WakeupRecord}

theorem prune_fst (cutoff : UInt64) (s : List Entry) (e : Entry) :
    (Ledger.prune cutoff s e).1 = if expired cutoff e.1 then s ++ [e] else s := by
  unfold Ledger.prune
  split <;> rfl

theorem prune_snd (cutoff : UInt64) (s : List Entry) (e : Entry) :
    (Ledger.prune cutoff s e).2 = (expired cutoff e.1 || e.1.matched) := by
  unfold Ledger.prune
  split <;> simp [*]

/-- The entries a new wakeup leaves to the pruning. -/
def Ledger.offered (l : Ledger) (w : WakeupRecord) : List Entry :=
  l.pending ++ [(w, l.recorded)]

theorem recordWakeup_unnecessary (l : Ledger) (tsNs : UInt64) (pid targetCpu : Int32) :
    (l.recordWakeup tsNs pid targetCpu).unnecessary =
      l.unnecessary ++ (l.offered ⟨tsNs, pid, targetCpu, false⟩).filter fun e => expired (cutoff l.window tsNs) e.1 :=
  removeIf_fst (prune_fst _) _ _

theorem recordWakeup_pending (l : Ledger) (tsNs : UInt64) (pid targetCpu : Int32) :
    (l.recordWakeup tsNs pid targetCpu).pending =
      (l.offered ⟨tsNs, pid, targetCpu, false⟩).filter fun e => !(expired (cutoff l.window tsNs) e.1 || e.1.matched) :=
  removeIf_snd (prune_snd _) _ _

/-- Pruning divides the unmatched wakeups into the unnecessary ones and those that stay. -/
theorem filter_expired_perm (cutoff : UInt64) (es : List Entry) :
    (es.filter (fun e => expired cutoff e.1) ++
      (es.filter fun e => !(expired cutoff e.1 || e.1.matched)).filter unmatched).Perm (es.filter unmatched) := by
  have hperm := List.filter_append_perm (fun e : Entry => expired cutoff e.1) (es.filter unmatched)
  rw [List.filter_filter, List.filter_filter] at hperm
  rw [List.filter_filter]
  convert hperm using 3
  · funext e
    cases hm : e.1.matched <;> simp [expired, unmatched, hm]
  · funext e
    cases hm : e.1.matched <;> simp [expired, unmatched, hm]

theorem Balanced.recordWakeup (h : Balanced l ws) (tsNs : UInt64) (pid targetCpu : Int32) :
    Balanced (l.recordWakeup tsNs pid targetCpu) (ws ++ [⟨tsNs, pid, targetCpu, false⟩]) := by
  refine ⟨by simp [Ledger.recordWakeup, h.recorded], ?_⟩
  rw [recordWakeup_unnecessary, recordWakeup_pending, List.zipIdx_append]
  have hsplit := filter_expired_perm (cutoff l.window tsNs) (l.offered ⟨tsNs, pid, targetCpu, false⟩)
  have hopen : (l.offered ⟨tsNs, pid, targetCpu, false⟩).filter unmatched =
      l.pending.filter unmatched ++ [(⟨tsNs, pid, targetCpu, false⟩, ws.length)] := by
    rw [Ledger.offered, List.filter_append, h.recorded]
    rfl
  have hgoal := (hsplit.append_left (l.correlated ++ l.unnecessary))
  rw [hopen, ← List.append_assoc _ (l.pending.filter unmatched)] at hgoal
  have hend := hgoal.trans (h.perm.append_right [(⟨tsNs, pid, targetCpu, false⟩, ws.length)])
  simpa [List.append_assoc, Ledger.recordWakeup] using hend

theorem Balanced.recordSwitch (h : Balanced l ws) (tsNs : UInt64) (cpu nextPid : Int32) :
    Balanced (l.recordSwitch tsNs cpu nextPid) ws := by
  cases hr : updateFirst (fun e : Entry => correlates l.window tsNs cpu nextPid e.1) Ledger.mark l.pending with
  | none =>
    have heq : l.recordSwitch tsNs cpu nextPid = l := by rw [Ledger.recordSwitch, hr]
    rwa [heq]
  | some r =>
    have heq : l.recordSwitch tsNs cpu nextPid = { l with pending := r.2, correlated := l.correlated ++ [r.1] } := by
      rw [Ledger.recordSwitch, hr]
    rw [heq]
    refine ⟨h.recorded, ?_⟩
    have hperm : (l.pending.filter unmatched).Perm (r.1 :: r.2.filter unmatched) := by
      apply updateFirst_perm _ _ hr
      · intro e he
        exact (Bool.and_eq_true _ _ ▸ he).1
      · intro e _
        rfl
    refine List.Perm.trans ?_ ((hperm.symm.append_left (l.correlated ++ l.unnecessary)).trans h.perm)
    simp only [List.append_assoc, List.singleton_append]
    exact List.Perm.append_left _ List.perm_middle.symm

theorem Balanced.step (h : Balanced l ws) (op : SchedOp) : Balanced (l.step op) (ws ++ op.wakeup.toList) := by
  cases op with
  | call c =>
    cases c with
    | recordWakeup tsNs pid targetCpu => exact h.recordWakeup tsNs pid targetCpu
    | recordSwitch tsNs cpu nextPid =>
      simp only [SchedOp.wakeup, Option.toList_none, List.append_nil]
      exact h.recordSwitch tsNs cpu nextPid
  | setCorrelationWindowNs ns =>
    simp only [SchedOp.wakeup, Option.toList_none, List.append_nil]
    exact ⟨h.recorded, h.perm⟩

theorem ledger_balanced (window : UInt64) (ops : List SchedOp) : Balanced (Ledger.run window ops) (wakeupsOf ops) := by
  induction ops using List.reverseRecOn with
  | nil => exact ⟨rfl, .nil⟩
  | append_singleton ops op ih =>
    have hstep := ih.step op
    simp only [Ledger.run, wakeupsOf, List.foldl_append, List.foldl_cons, List.foldl_nil, List.filterMap_append]
      at hstep ⊢
    convert hstep using 2
    cases hw : op.wakeup <;> simp [hw]

/-- After any operations, with any timestamps: each recorded wakeup is one of the correlated, of the unnecessary, or of
the unmatched pending ones, and the counters count these. -/
theorem wakeup_conservation (window : UInt64) (ops : List SchedOp) :
    (Ledger.run window ops).collector = SchedCollector.run window ops ∧
    ((Ledger.run window ops).correlated ++ (Ledger.run window ops).unnecessary ++
      (Ledger.run window ops).pending.filter unmatched).Perm (wakeupsOf ops).zipIdx ∧
    (SchedCollector.run window ops).wakeups = UInt64.ofNat (wakeupsOf ops).length ∧
    (SchedCollector.run window ops).wakeups = (SchedCollector.run window ops).correlatedWakeups +
      (SchedCollector.run window ops).unnecessaryWakeups +
      UInt64.ofNat ((SchedCollector.run window ops).pendingWakeups.filter fun w => !w.matched).length := by
  have hbal := ledger_balanced window ops
  have hlen := hbal.perm.length_eq
  rw [List.length_append, List.length_append, List.length_zipIdx] at hlen
  have hpending : ((SchedCollector.run window ops).pendingWakeups.filter fun w => !w.matched).length =
      ((Ledger.run window ops).pending.filter unmatched).length := by
    rw [← ledger_collector, Ledger.collector, List.filter_map, List.length_map]
    rfl
  refine ⟨ledger_collector window ops, hbal.perm, ?_, ?_⟩
  · rw [← ledger_collector, Ledger.collector, hbal.recorded]
  · rw [hpending, ← ledger_collector, Ledger.collector, hbal.recorded, ← hlen, UInt64.ofNat_add, UInt64.ofNat_add]

end Balance

/-! ## A collector that forgets nothing -/

section Transparent

/-- Every wakeup so far, and how many are answered. -/
structure Reference where
  wakeups : List WakeupRecord := []
  correlated : UInt64 := 0

/-- An unmatched wakeup of the task that is switched to, on this processor, not later than the switch and at most the
window older. -/
def answers (window now : UInt64) (cpu nextPid : Int32) (w : WakeupRecord) : Bool :=
  !w.matched && decide (w.pid = nextPid ∧ w.targetCpu = cpu ∧ w.tsNs.toNat ≤ now.toNat ∧
    now.toNat ≤ w.tsNs.toNat + window.toNat)

/-- A switch answers the earliest such wakeup. -/
def Reference.recordSwitch (window : UInt64) (r : Reference) (tsNs : UInt64) (cpu nextPid : Int32) : Reference :=
  match updateFirst (answers window tsNs cpu nextPid) WakeupRecord.mark r.wakeups with
  | none => r
  | some found => { wakeups := found.2, correlated := r.correlated + 1 }

def Reference.step (window : UInt64) (r : Reference) : SchedCall → Reference
  | .recordWakeup tsNs pid targetCpu => { r with wakeups := r.wakeups ++ [⟨tsNs, pid, targetCpu, false⟩] }
  | .recordSwitch tsNs cpu nextPid => r.recordSwitch window tsNs cpu nextPid

def Reference.run (window : UInt64) (calls : List SchedCall) : Reference :=
  calls.foldl (Reference.step window) {}

/-- The timestamps do not decrease. -/
def Ordered (calls : List SchedCall) : Prop :=
  calls.Pairwise fun a b => a.tsNs ≤ b.tsNs

/-- Unmatched and at most the window old. -/
def fresh (window now : UInt64) (w : WakeupRecord) : Bool :=
  !w.matched && decide (now.toNat ≤ w.tsNs.toNat + window.toNat)

variable {window now now' tsNs : UInt64} {cpu nextPid : Int32} {w : WakeupRecord} {c : SchedCollector} {r : Reference}
  {calls : List SchedCall}

theorem fresh_of_le (hle : now ≤ now') (h : fresh window now' w = true) : fresh window now w = true := by
  have hle := UInt64.le_iff_toNat_le.mp hle
  simp only [fresh, Bool.and_eq_true, decide_eq_true_eq] at h ⊢
  exact ⟨h.1, by omega⟩

/-- The test of the collector, whose difference of times does not wrap. -/
theorem correlates_eq (window tsNs : UInt64) (cpu nextPid : Int32) :
    correlates window tsNs cpu nextPid = answers window tsNs cpu nextPid := by
  funext w
  have hwindow : tsNs ≥ w.tsNs ∧ tsNs - w.tsNs ≤ window ↔
      w.tsNs.toNat ≤ tsNs.toNat ∧ tsNs.toNat ≤ w.tsNs.toNat + window.toNat := by
    rw [ge_iff_le, UInt64.le_iff_toNat_le, UInt64.le_iff_toNat_le]
    refine and_congr_right fun hle => ?_
    rw [UInt64.toNat_sub_of_le _ _ (UInt64.le_iff_toNat_le.mpr hle)]
    omega
  simp only [correlates, answers, hwindow]

theorem fresh_of_answers (h : answers window tsNs cpu nextPid w = true) : fresh window tsNs w = true := by
  simp only [answers, fresh, Bool.and_eq_true, decide_eq_true_eq] at h ⊢
  exact ⟨h.1, h.2.2.2.2⟩

/-- A wakeup expires exactly when the window is over. -/
theorem lt_cutoff_iff : w.tsNs < cutoff window tsNs ↔ w.tsNs.toNat + window.toNat < tsNs.toNat := by
  unfold cutoff
  rw [UInt64.lt_iff_toNat_lt]
  by_cases hgt : tsNs > window
  · have hlt := UInt64.lt_iff_toNat_lt.mp hgt
    rw [if_pos hgt, UInt64.toNat_sub_of_le _ _ (UInt64.le_of_lt hgt)]
    omega
  · have hle := UInt64.le_iff_toNat_le.mp (UInt64.not_lt.mp hgt)
    rw [if_neg hgt, UInt64.toNat_zero]
    omega

/-- The collector and the reference agree on the wakeups a switch at `now` or later can answer, and on the count. -/
structure Agrees (window now : UInt64) (c : SchedCollector) (r : Reference) : Prop where
  window_eq : c.correlationWindowNs = window
  filter_eq : c.pendingWakeups.filter (fresh window now) = r.wakeups.filter (fresh window now)
  correlated_eq : c.correlatedWakeups = r.correlated

theorem Agrees.later (h : Agrees window now c r) (hle : now ≤ now') : Agrees window now' c r := by
  have hfilter : ∀ ws : List WakeupRecord, ws.filter (fresh window now') =
      (ws.filter (fresh window now)).filter (fresh window now') := by
    intro ws
    rw [List.filter_filter]
    apply List.filter_congr
    intro w _
    cases hf : fresh window now' w with
    | false => rfl
    | true => rw [fresh_of_le hle hf, Bool.and_self]
  refine ⟨h.window_eq, ?_, h.correlated_eq⟩
  rw [hfilter, h.filter_eq, ← hfilter]

/-- A wakeup prunes nothing that a switch can still answer. -/
theorem Agrees.recordWakeup (h : Agrees window tsNs c r) (pid targetCpu : Int32) :
    Agrees window tsNs (c.recordWakeup tsNs pid targetCpu) (r.step window (.recordWakeup tsNs pid targetCpu)) := by
  have hleft : (c.recordWakeup tsNs pid targetCpu).pendingWakeups =
      (c.pendingWakeups ++ [WakeupRecord.mk tsNs pid targetCpu false]).filter
        fun w => !(expired (cutoff c.correlationWindowNs tsNs) w || w.matched) := by
    apply removeIf_snd
    intro s w
    unfold prune
    split <;> simp [*]
  refine ⟨h.window_eq, ?_, h.correlated_eq⟩
  rw [hleft, h.window_eq, List.filter_filter]
  have hkeep : ∀ w : WakeupRecord, (fresh window tsNs w && !(expired (cutoff window tsNs) w || w.matched)) =
      fresh window tsNs w := by
    intro w
    cases hf : fresh window tsNs w with
    | false => rfl
    | true =>
      simp only [fresh, Bool.and_eq_true, decide_eq_true_eq, Bool.not_eq_true'] at hf
      have hkept : ¬w.tsNs < cutoff window tsNs := by
        rw [lt_cutoff_iff]
        omega
      simp [expired, hf.1, hkept]
  simp only [hkeep, List.filter_append, h.filter_eq, Reference.step]

/-- Both find the same wakeup, or none. -/
theorem Agrees.recordSwitch (h : Agrees window tsNs c r) (cpu nextPid : Int32) :
    Agrees window tsNs (c.recordSwitch tsNs cpu nextPid) (r.step window (.recordSwitch tsNs cpu nextPid)) := by
  have hboth := updateFirst_filter_congr (p := answers window tsNs cpu nextPid) (u := WakeupRecord.mark)
    (fun _ => fresh_of_answers) (fun _ _ => rfl) h.filter_eq
  rw [Reference.step]
  unfold SchedCollector.recordSwitch Reference.recordSwitch
  rw [h.window_eq, correlates_eq]
  cases hc : updateFirst (answers window tsNs cpu nextPid) WakeupRecord.mark c.pendingWakeups with
  | none =>
    cases hr : updateFirst (answers window tsNs cpu nextPid) WakeupRecord.mark r.wakeups with
    | none => exact h
    | some found =>
      rw [hc, hr] at hboth
      cases hboth
  | some found =>
    cases hr : updateFirst (answers window tsNs cpu nextPid) WakeupRecord.mark r.wakeups with
    | none =>
      rw [hc, hr] at hboth
      cases hboth
    | some found' =>
      rw [hc, hr] at hboth
      refine ⟨rfl, (Prod.mk.inj (Option.some.inj hboth)).2, ?_⟩
      exact congrArg (· + 1) h.correlated_eq

theorem Agrees.step {call : SchedCall} (h : Agrees window call.tsNs c r) :
    Agrees window call.tsNs (c.step (.call call)) (r.step window call) := by
  cases call with
  | recordWakeup tsNs pid targetCpu => exact h.recordWakeup pid targetCpu
  | recordSwitch tsNs cpu nextPid => exact h.recordSwitch cpu nextPid

/-- A call of an ordered sequence is at or after the calls before it. -/
theorem Ordered.split {call : SchedCall} (h : Ordered (calls ++ [call])) :
    Ordered calls ∧ ∀ c ∈ calls, c.tsNs ≤ call.tsNs := by
  obtain ⟨hcalls, -, hcross⟩ := List.pairwise_append.mp h
  exact ⟨hcalls, fun c hc => hcross c hc call (List.mem_singleton_self call)⟩

theorem run_agrees (hord : Ordered calls) (hnow : ∀ c ∈ calls, c.tsNs ≤ now) :
    Agrees window now (SchedCollector.run window (calls.map .call)) (Reference.run window calls) := by
  induction calls using List.reverseRecOn generalizing now with
  | nil => exact ⟨rfl, rfl, rfl⟩
  | append_singleton calls call ih =>
    obtain ⟨hcalls, hbefore⟩ := hord.split
    have hstep := (ih hcalls hbefore).step
    have hlater := hstep.later (hnow call (by simp))
    simpa [SchedCollector.run, Reference.run] using hlater

/-- What is counted as unnecessary at `now` is out of the window. -/
theorem ledger_expired (hord : Ordered calls) (hnow : ∀ c ∈ calls, c.tsNs ≤ now) :
    (Ledger.run window (calls.map .call)).window = window ∧
      ∀ e ∈ (Ledger.run window (calls.map .call)).unnecessary, e.1.tsNs.toNat + window.toNat < now.toNat := by
  induction calls using List.reverseRecOn generalizing now with
  | nil =>
    refine ⟨rfl, ?_⟩
    intro e he
    cases he
  | append_singleton calls call ih =>
    obtain ⟨hcalls, hbefore⟩ := hord.split
    obtain ⟨hwindow, hold⟩ := ih hcalls hbefore
    have hle := UInt64.le_iff_toNat_le.mp (hnow call (by simp))
    have hrun : Ledger.run window ((calls ++ [call]).map .call) =
        (Ledger.run window (calls.map .call)).step (.call call) := by
      simp [Ledger.run]
    rw [hrun]
    cases call with
    | recordWakeup tsNs pid targetCpu =>
      refine ⟨hwindow, ?_⟩
      intro e he
      rw [Ledger.step, recordWakeup_unnecessary, List.mem_append, List.mem_filter] at he
      rcases he with he | ⟨-, he⟩
      · exact Nat.lt_of_lt_of_le (hold e he) hle
      · rw [expired, Bool.and_eq_true, decide_eq_true_eq, lt_cutoff_iff, hwindow] at he
        exact Nat.lt_of_lt_of_le he.2 hle
    | recordSwitch tsNs cpu nextPid =>
      have hsame : ((Ledger.run window (calls.map .call)).recordSwitch tsNs cpu nextPid).window =
            (Ledger.run window (calls.map .call)).window ∧
          ((Ledger.run window (calls.map .call)).recordSwitch tsNs cpu nextPid).unnecessary =
            (Ledger.run window (calls.map .call)).unnecessary := by
        unfold Ledger.recordSwitch
        split <;> exact ⟨rfl, rfl⟩
      rw [Ledger.step, hsame.1, hsame.2]
      exact ⟨hwindow, fun e he => Nat.lt_of_lt_of_le (hold e he) hle⟩

/-- With an ordered clock and a fixed window the collector has correlated as many wakeups as one that forgets none, and
what it has counted as unnecessary no later switch can answer. -/
theorem pruning_transparent (window : UInt64) {calls : List SchedCall} (hord : Ordered calls) :
    (SchedCollector.run window (calls.map .call)).correlatedWakeups = (Reference.run window calls).correlated ∧
    (Ledger.run window (calls.map .call)).collector = SchedCollector.run window (calls.map .call) ∧
    ∀ e ∈ (Ledger.run window (calls.map .call)).unnecessary, ∀ more, Ordered (calls ++ more) →
      ∀ tsNs cpu nextPid, .recordSwitch tsNs cpu nextPid ∈ more → correlates window tsNs cpu nextPid e.1 = false := by
  refine ⟨?_, ledger_collector window _, ?_⟩
  · have hlast : ∀ c ∈ calls, c.tsNs ≤ UInt64.ofNat (2 ^ 64 - 1) := by
      intro c _
      have := c.tsNs.toNat_lt
      rw [UInt64.le_iff_toNat_le, UInt64.toNat_ofNat']
      omega
    exact (run_agrees hord hlast).correlated_eq
  · intro e he more hmore tsNs cpu nextPid hmem
    have hbefore : ∀ c ∈ calls, c.tsNs ≤ tsNs :=
      fun c hc => (List.pairwise_append.mp hmore).2.2 c hc _ hmem
    have hexp := (ledger_expired hord hbefore).2 e he
    rw [correlates_eq]
    by_contra hcor
    have hfresh := fresh_of_answers (Bool.not_eq_false _ ▸ hcor)
    simp only [fresh, Bool.and_eq_true, decide_eq_true_eq] at hfresh
    omega

/-- A wakeup that is answered, one that is not, and one that prunes it. -/
def threeWakeups : List SchedCall :=
  [.recordWakeup 0 42 1, .recordSwitch 500000 1 42, .recordWakeup 2000000 99 0, .recordWakeup 5000000 100 0]

theorem threeWakeups_ordered : Ordered threeWakeups := by
  unfold Ordered
  decide

theorem pruning_transparent_threeWakeups :
    (SchedCollector.run 1000000 (threeWakeups.map .call)).correlatedWakeups =
      (Reference.run 1000000 threeWakeups).correlated ∧
    (Ledger.run 1000000 (threeWakeups.map .call)).collector = SchedCollector.run 1000000 (threeWakeups.map .call) ∧
    ∀ e ∈ (Ledger.run 1000000 (threeWakeups.map .call)).unnecessary, ∀ more, Ordered (threeWakeups ++ more) →
      ∀ tsNs cpu nextPid, .recordSwitch tsNs cpu nextPid ∈ more → correlates 1000000 tsNs cpu nextPid e.1 = false :=
  pruning_transparent 1000000 threeWakeups_ordered

example : (Ledger.run 1000000 (threeWakeups.map .call)).unnecessary = [(⟨2000000, 99, 0, false⟩, 1)] := by decide

end Transparent

end Exasphere.Collectors
