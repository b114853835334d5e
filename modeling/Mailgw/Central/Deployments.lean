import Mailgw.Calls.Runs
import Mailgw.Lists.Latest
import Mailgw.Lists.Table
import Mailgw.Queue.Names

namespace Mailgw.Central

open Calls Lists Queue

structure Version where
  id : Nat
  gatewayId : Nat
  version : Nat
  bundle : Name
  bundleSha256 : Name
  note : Option Name
  createdBy : Name
  deriving DecidableEq

inductive Action where
  | deploy | rollback
  deriving DecidableEq

structure Deployment where
  id : Nat
  gatewayId : Nat
  versionId : Nat
  action : Action
  actor : Name
  note : Option Name := none
  deriving DecidableEq

structure Gateway where
  desiredVersionId : Option Nat := none
  appliedVersionId : Option Nat := none
  applyError : Option Name := none
  errorFor : Option Nat := none
  deriving DecidableEq

structure Console where
  gateways : Table Nat Gateway := .empty
  versions : List Version := []
  deployments : List Deployment := []
  nextGateway : Nat := 1
  nextVersion : Nat := 1
  nextDeployment : Nat := 1

structure DeployResult where
  versionId : Nat
  version : Nat
  sha256 : Name
  unchanged : Bool
  deriving DecidableEq

/-- What a heartbeat says about the configuration. What it leaves out stays as it is. -/
structure Report where
  appliedVersionId : Option (Option Nat) := none
  applyError : Option (Option Name) := none

namespace Console

def updateGateway (c : Console) (id : Nat) (change : Gateway → Gateway) : Console :=
  match c.gateways.get id with
  | none => c
  | some gateway => { c with gateways := c.gateways.set id (change gateway) }

def latestVersion (c : Console) (gatewayId : Nat) : Option Version :=
  (latest Version.version (c.versions.filter fun v => v.gatewayId = gatewayId)).head?

def newestDeployment (c : Console) (gatewayId : Nat) : Option Deployment :=
  (latest Deployment.id (c.deployments.filter fun d => d.gatewayId = gatewayId)).head?

def recordDeployment (c : Console) (gatewayId versionId : Nat) (action : Action) (actor : Name) (note : Option Name) : Console :=
  { c with
    deployments := c.deployments ++ [⟨c.nextDeployment, gatewayId, versionId, action, actor, note⟩]
    nextDeployment := c.nextDeployment + 1 }

def disappeared : Name := "config version disappeared immediately after insert".toList

def noSuchVersion : Name := "no such configuration version for this gateway".toList

def createVersion (c : Console) (gatewayId version : Nat) (serialised sha256 actor : Name) (note : Option Name) :
    Except Name (Console × DeployResult) :=
  let inserted : Console := { c with
    versions := c.versions ++ [⟨c.nextVersion, gatewayId, version, serialised, sha256, note, actor⟩]
    nextVersion := c.nextVersion + 1 }
  match inserted.versions.find? fun v => v.gatewayId = gatewayId ∧ v.version = version with
  | none => .error disappeared
  | some created =>
    let pointed := inserted.updateGateway gatewayId fun gateway =>
      { gateway with desiredVersionId := some created.id, applyError := none }
    .ok (pointed.recordDeployment gatewayId created.id .deploy actor note, ⟨created.id, version, sha256, false⟩)

/-- Deploys what was composed, or points at the newest version if that is the same. A transaction that
    throws changes nothing. -/
def deployInTransaction (digest : Name → Name) (c : Console) (gatewayId : Nat) (composed : Except Name Name) (actor : Name)
    (note : Option Name) : Except Name (Console × DeployResult) := do
  let serialised ← composed
  let sha256 := digest serialised
  match c.latestVersion gatewayId with
  | none => c.createVersion gatewayId 1 serialised sha256 actor note
  | some latest =>
    if latest.bundleSha256 = sha256 then
      return (c.updateGateway gatewayId fun gateway => { gateway with desiredVersionId := some latest.id },
        ⟨latest.id, latest.version, sha256, true⟩)
    else c.createVersion gatewayId (latest.version + 1) serialised sha256 actor note

def rollbackInTransaction (c : Console) (gatewayId versionId : Nat) (actor : Name) : Except Name (Console × Nat) :=
  match c.versions.find? fun v => v.id = versionId ∧ v.gatewayId = gatewayId with
  | none => .error noSuchVersion
  | some target =>
    let pointed := c.updateGateway gatewayId fun gateway =>
      { gateway with desiredVersionId := some target.id, applyError := none }
    .ok (pointed.recordDeployment gatewayId target.id .rollback actor none, target.version)

def report (c : Console) (gatewayId : Nat) (r : Report) : Console :=
  c.updateGateway gatewayId fun gateway => { gateway with
    appliedVersionId := r.appliedVersionId.getD gateway.appliedVersionId
    applyError := r.applyError.getD gateway.applyError
    errorFor := if r.applyError.isSome then gateway.desiredVersionId else gateway.errorFor }

def delete (c : Console) (gatewayId : Nat) : Console := { c with
  gateways := c.gateways.del gatewayId
  versions := c.versions.filter fun v => v.gatewayId ≠ gatewayId
  deployments := c.deployments.filter fun d => d.gatewayId ≠ gatewayId }

end Console

inductive ConsoleMove where
  | register
  | deploy (gatewayId : Nat) (composed : Except Name Name) (actor : Name) (note : Option Name)
  | rollback (gatewayId versionId : Nat) (actor : Name)
  | report (gatewayId : Nat) (r : Report)
  | delete (gatewayId : Nat)

def Console.next (digest : Name → Name) (c : Console) : ConsoleMove → Option Console
  | .register => some { c with gateways := c.gateways.set c.nextGateway {}, nextGateway := c.nextGateway + 1 }
  | .deploy gatewayId composed actor note =>
    (c.deployInTransaction digest gatewayId composed actor note).toOption.map Prod.fst
  | .rollback gatewayId versionId actor => (c.rollbackInTransaction gatewayId versionId actor).toOption.map Prod.fst
  | .report gatewayId r => some (c.report gatewayId r)
  | .delete gatewayId => some (c.delete gatewayId)

end Mailgw.Central
