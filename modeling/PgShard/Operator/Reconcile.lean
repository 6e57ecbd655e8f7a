import PgShard.Operator.Cutover

/-! One reconcile of a reshard: dispatch by phase and persist the status, or the
cleanup of a reshard being deleted. -/

namespace PgShard.Operator

open Versioned Effects

/-- The source of a reshard being deleted is un-fenced if the switch never
committed, its claim is released, and then the finalizer goes. A committed
switch is completed first. -/
def cleanupCutoverClaim (r : Copy Reshard) : Ctl Unit := do
  if cutoverClaimFinalizer ∉ r.obj.finalizers then .ret ()
  else do
    let source ← sourceForCleanup r
    match source with
    | none => do
      let ungated ← clearGate r
      dropFinalizer ungated
    | some source =>
      if r.obj.status.switchCommitted ∧ source.obj.serving then
        match ← fetchCluster r.obj.spec.clusterRef with
        | none => .exit .failed
        | some _ => do
          let _ ← completeSwitch r source
          .ret ()
      else do
        let ungated ← clearGate r
        let settled ← settleUncommitted ungated source.obj
        releaseSourceClaim settled source
        dropFinalizer settled
where
  /-- Clears the gate request, so that the routing controller withdraws its gate. -/
  clearGate (r : Copy Reshard) : Ctl (Copy Reshard) := do
    if r.obj.status.cutoverGateDeadline ≠ none then
      updateStatus (modifyStatus r fun s => { s with cutoverGateDeadline := none })
    else .ret r
  /-- A committed switch keeps its fence for good. -/
  settleUncommitted (r : Copy Reshard) (source : Shard) : Ctl (Copy Reshard) :=
    if r.obj.status.switchCommitted then .ret r else settleFence r source
  dropFinalizer (r : Copy Reshard) : Ctl Unit := do
    let _ ← updateReshard { r with obj := r.obj.removeFinalizer cutoverClaimFinalizer }
    .ret ()

def reconcilePhase (r : Copy Reshard) : Ctl (Copy Reshard) :=
  match r.obj.status.phase with
  | .unset => reconcileValidating r
  | .pending => reconcileValidating r
  | .validating => reconcileValidating r
  | .provisioningTargets => reconcileProvisioningTargets r
  | .seeding => reconcileSeeding r
  | .catchingUp => reconcileCatchingUp r
  | .readyToCutover => reconcileReadyToCutover r
  | .cuttingOver => reconcileCuttingOver r
  | _ => .ret r

def persist (before after : Copy Reshard) : Ctl Unit := do
  if before.obj.status = after.obj.status then .ret ()
  else do
    let _ ← updateStatus after
    .ret ()

def reconcile (name : String) : Ctl Unit := do
  match ← call (.getReshard name) with
  | .notFound => .ret ()
  | .failed => .exit .failed
  | .found r =>
    if r.obj.deleting then cleanupCutoverClaim r
    else
      match ← (reconcilePhase r).attempt with
      | .error .failed => .exit .failed
      | .error (.returned after) => persist r after
      | .ok after => persist r after

end PgShard.Operator
