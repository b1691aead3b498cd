import Exasphere.Lib.Bytes

/-!
# The safety gate (`safety/safety.cpp`)

A mutation is refused unless it is asked for, in a disposable lab, with the ids of its audit and of its rollback. And
even then it is only planned.
-/

namespace Exasphere.Core

open Exasphere.Lib

inductive Mutation
  | schedAffinity
  | schedPriority
  | cgroupWrite
  | schedExtLoad
  | numaBind
  deriving DecidableEq, Repr

def mutationName : Mutation → String
  | .schedAffinity => "sched_setaffinity"
  | .schedPriority => "sched_setpriority"
  | .cgroupWrite => "cgroup_write"
  | .schedExtLoad => "sched_ext_load"
  | .numaBind => "numa_bind"

def unsafeVerbs : List Bytes :=
  ["load", "attach", "enable", "mutate", "apply", "sched-ext-attach", "setaffinity", "setpriority", "bind"].map utf8

def isUnsafeVerb (verb : Bytes) : Bool := decide (verb ∈ unsafeVerbs)

structure AuditContext where
  allowMutate : Bool := false
  auditId : Bytes := []
  rollbackId : Bytes := []
  vmLabMarker : Bool := false
  deriving DecidableEq, Repr

structure GateDecision where
  allowed : Bool
  reason : Bytes
  deriving DecidableEq, Repr

/-- `SafetyGate::decide` -/
def gateDecision (m : Mutation) (ctx : AuditContext) : GateDecision :=
  let name := utf8 (mutationName m)
  if ctx.allowMutate = false then
    ⟨false, utf8 "refused: " ++ name ++ utf8 " is disabled by default (fail-closed); read-only observation only"⟩
  else if ctx.vmLabMarker = false then
    ⟨false, utf8 "refused: " ++ name ++
      utf8 " requires a disposable VM lab marker; host mutation is not permitted"⟩
  else if ctx.auditId.isEmpty || ctx.rollbackId.isEmpty then
    ⟨false, utf8 "refused: " ++ name ++ utf8 " requires --audit-id and --rollback-id"⟩
  else ⟨true, utf8 "authorized (planned only): " ++ name ++ utf8 " audit=" ++ ctx.auditId ++ utf8 " rollback=" ++
    ctx.rollbackId⟩

/-- All that a mutation needs. -/
structure AuditContext.Full (ctx : AuditContext) : Prop where
  asked : ctx.allowMutate = true
  lab : ctx.vmLabMarker = true
  audit : ctx.auditId ≠ []
  rollback : ctx.rollbackId ≠ []

theorem gateDecision_allowed_iff (m : Mutation) (ctx : AuditContext) :
    (gateDecision m ctx).allowed = true ↔ ctx.Full := by
  obtain ⟨allow, audit, rollback, lab⟩ := ctx
  unfold gateDecision
  dsimp only
  cases allow with
  | false => exact ⟨nofun, fun h => absurd h.asked Bool.false_ne_true⟩
  | true =>
    cases lab with
    | false => exact ⟨nofun, fun h => absurd h.lab Bool.false_ne_true⟩
    | true =>
      simp only [Bool.true_eq_false, if_false]
      split
      next hempty =>
        refine ⟨nofun, fun h => ?_⟩
        rcases (Bool.or_eq_true ..).mp hempty with ha | hr
        · exact absurd (List.isEmpty_iff.mp ha) h.audit
        · exact absurd (List.isEmpty_iff.mp hr) h.rollback
      next hne =>
        rw [Bool.or_eq_true, not_or, List.isEmpty_iff, List.isEmpty_iff] at hne
        exact ⟨fun _ => ⟨rfl, rfl, hne.1, hne.2⟩, fun _ => rfl⟩

end Exasphere.Core
