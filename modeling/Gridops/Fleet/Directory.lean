import Gridops.Lib.Run
import Gridops.Fleet.Store

/-!
# Who may administer what

The tables that decide whether a user may act on a CI target: the users' roles, the
targets, and the permissions the users hold on the installations and connections the
targets belong to. Other parts of the control plane write them at any time, so every
call reads them as they are then.

An `EnrollmentScope` is the set of targets a code is issued for.
-/

namespace Gridops.Fleet

open Gridops.Lib

abbrev TargetId := Nat
abbrev InstallationId := Nat
abbrev RepositoryId := Nat
abbrev ConnectionId := String

inductive EnrollmentInputError
  | invalidTtl | scopeTooLarge | duplicateScopeTarget
deriving DecidableEq

/-- The errors of the administrative calls of the registry. -/
inductive AdminError
  | registry (error : RegistryError)
  | input (error : EnrollmentInputError)
  | enrollmentGone | enrollmentScopeMismatch | staleRevision | targetScopeForbidden
deriving DecidableEq

def maxEnrollmentTargets : Nat := 64

/-- An exact set of targets, in order and without repetition. -/
structure EnrollmentScope where
  targetIds : List TargetId
  sorted : targetIds.Pairwise (· < ·)
  bounded : targetIds.length ≤ maxEnrollmentTargets
deriving DecidableEq

namespace EnrollmentScope

def empty : EnrollmentScope := ⟨[], .nil, Nat.zero_le _⟩

/-- Sorts the targets; a repeated one then stands next to itself and is refused. -/
def new (targetIds : List TargetId) : Except EnrollmentInputError EnrollmentScope :=
  if hlength : targetIds.length > maxEnrollmentTargets then .error .scopeTooLarge
  else
    if hsorted : (targetIds.insertionSort (· ≤ ·)).Pairwise (· < ·) then
      .ok ⟨targetIds.insertionSort (· ≤ ·), hsorted, by
        rw [List.length_insertionSort]
        omega⟩
    else .error .duplicateScopeTarget

def isSubset (requested issued : EnrollmentScope) : Bool :=
  requested.targetIds.all fun requestedId => issued.targetIds.any (· == requestedId)

theorem isSubset_iff {requested issued : EnrollmentScope} :
    requested.isSubset issued ↔ ∀ t ∈ requested.targetIds, t ∈ issued.targetIds := by
  simp [isSubset]

end EnrollmentScope

/-! ## The directory -/

inductive UserRole
  | member | admin
deriving DecidableEq

structure User where
  id : UserId
  role : UserRole
deriving DecidableEq

/-- What a row of `fleet_ci_targets` stands for; its columns are the ones its kind has. -/
inductive TargetIdentity
  | githubRepository (installationId : InstallationId) (repositoryId : RepositoryId)
  | githubOrganization (installationId : InstallationId) (organizationId : Nat)
  | bitbucketWorkspace (connectionId : ConnectionId) (workspaceUuid : String)
  | bitbucketRepository (connectionId : ConnectionId) (workspaceUuid repositoryUuid : String)
deriving DecidableEq

structure TargetRow where
  id : TargetId
  identity : TargetIdentity
deriving DecidableEq

structure Installation where
  id : InstallationId
  accountId : Nat
  suspendedAt : Option Millis
deriving DecidableEq

structure Repository where
  id : RepositoryId
  installationId : InstallationId
deriving DecidableEq

structure BitbucketConnection where
  id : ConnectionId
  workspaceUuid : String
deriving DecidableEq

inductive Permission
  | read | admin
deriving DecidableEq

structure UserInstallation where
  userId : UserId
  installationId : InstallationId
  permission : Permission
deriving DecidableEq

structure BitbucketUserGrant where
  connectionId : ConnectionId
  userId : UserId
  permission : Permission
  revokedAt : Option Millis
deriving DecidableEq

structure Directory where
  users : Table User.id
  targets : Table TargetRow.id
  installations : Table Installation.id
  repositories : Table Repository.id
  connections : Table BitbucketConnection.id
  userInstallations : Table fun u : UserInstallation => (u.userId, u.installationId)
  bitbucketUserGrants : Table fun g : BitbucketUserGrant => (g.connectionId, g.userId)
deriving DecidableEq

namespace Directory

variable (d : Directory)

def ensureSystemAdmin (user : UserId) : Except AdminError Unit :=
  if (d.users.find user).any (·.role == .admin) then .ok () else .error (.registry .forbidden)

def administersInstallation (user : UserId) (id : InstallationId) : Bool :=
  d.userInstallations.rows.any (fun u =>
      u.userId == user && u.installationId == id && u.permission == .admin)
    && (d.installations.find id).any (·.suspendedAt.isNone)

def administersConnection (user : UserId) (id : ConnectionId) : Bool :=
  d.bitbucketUserGrants.rows.any fun g =>
    g.userId == user && g.connectionId == id && g.permission == .admin && g.revokedAt.isNone

def bareUuid (text : String) : List Char :=
  let brace (c : Char) := c.toNat == 0x7b || c.toNat == 0x7d
  (((text.toList.dropWhile brace).reverse.dropWhile brace).reverse).map Char.toLower

def connectsWorkspace (id : ConnectionId) (workspace : String) : Bool :=
  (d.connections.find id).any fun c => bareUuid workspace == bareUuid c.workspaceUuid

def mayAdminister (user : UserId) : TargetIdentity → Bool
  | .githubRepository installation repository =>
    d.repositories.rows.any (fun r => r.id == repository && r.installationId == installation)
      && d.administersInstallation user installation
  | .githubOrganization installation organization =>
    (d.installations.find installation).any (·.accountId == organization)
      && d.administersInstallation user installation
  | .bitbucketWorkspace connection workspace | .bitbucketRepository connection workspace _ =>
    d.connectsWorkspace connection workspace && d.administersConnection user connection

def ensureTargetAdmin (user : UserId) (target : TargetId) :
    Except AdminError Unit :=
  match d.targets.find target with
  | none => .error (.registry .notFound)
  | some row =>
    if d.mayAdminister user row.identity then .ok () else .error .targetScopeForbidden

def ensureScopeAdmin (user : UserId) (scope : EnrollmentScope) :
    Except AdminError Unit := do
  d.ensureSystemAdmin user
  scope.targetIds.forM (d.ensureTargetAdmin user)

end Directory

end Gridops.Fleet
