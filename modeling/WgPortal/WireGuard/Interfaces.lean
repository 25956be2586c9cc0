import WgPortal.WireGuard.Restore

/-! Creating, updating and deleting interfaces. Deleting one needs operations that
restoring interfaces does not. -/

namespace WgPortal.WireGuard

open Domain Library Adapters App Config

def disabledReasonDeleted : String := "deleted"

inductive LifecycleOp where
  | interface (op : InterfaceOp)
  /-- `DeleteInterface` of a controller -/
  | deleteInterface (backend : InterfaceBackend) (id : InterfaceIdentifier)
  /-- `SqlRepo.DeleteInterface` -/
  | deleteInterfaceRow (id : InterfaceIdentifier)

abbrev LifecycleOp.Res : LifecycleOp → Type
  | interface op => op.Res
  | deleteInterface .. => Except Error Unit
  | deleteInterfaceRow _ => Except Error Unit

abbrev LifecycleProgram := Program LifecycleOp LifecycleOp.Res

namespace LifecycleProgram

def issue (op : LifecycleOp) : LifecycleProgram op.Res := Program.perform op

def lift {α : Type} (prog : InterfaceProgram α) : LifecycleProgram α :=
  prog.embed fun op => issue (.interface op)

def repo (op : RepoOp) : LifecycleProgram (Except Error op.Val) :=
  issue (.interface (.manager (.repo op)))

def publish (event : Event) : LifecycleProgram Unit := issue (.interface (.manager (.publish event)))

end LifecycleProgram

open LifecycleProgram (issue lift repo publish)

/-- A call of a hook. With an empty command, nothing is executed in it. -/
structure HookRun where
  id : InterfaceIdentifier
  hook : Hook
  hookCmd : String
deriving DecidableEq

/-- A site with the hooks that were called there. -/
structure HookedSite where
  site : Site
  hooks : List HookRun

def InterfaceOp.hooks : InterfaceOp → List HookRun
  | .executeInterfaceHook id hook hookCmd => [⟨id, hook, hookCmd⟩]
  | _ => []

namespace Site

/-- A device that does not exist is no error. -/
def deleteInterface (site : Site) (backend : InterfaceBackend) (id : InterfaceIdentifier) : Site :=
  { site with
    devices := Function.update site.devices backend
      (Function.update (site.devices backend) id none) }

def deleteInterfaceRow (site : Site) (id : InterfaceIdentifier) : Site :=
  { site with
    db :=
      { site.db with
        interfaces := site.db.interfaces.filter (·.identifier ≠ id)
        peers := site.db.peers.filter (·.interfaceIdentifier ≠ id) } }

end Site

def LifecycleOp.exec (c : SiteCircumstance) : (op : LifecycleOp) → HookedSite → op.Res × HookedSite
  | .interface op, s =>
    let (answer, site) := op.exec c s.site
    (answer, ⟨site, s.hooks ++ op.hooks⟩)
  | .deleteInterface backend id, s =>
    let (answer, site) := attempted c.fault (.ok (), s.site.deleteInterface backend id) s.site
    (answer, { s with site := site })
  | .deleteInterfaceRow id, s =>
    let (answer, site) := attempted c.fault (.ok (), s.site.deleteInterfaceRow id) s.site
    (answer, { s with site := site })

/-- The operations in a row, each under the circumstances of its turn. -/
def lifecycleTurn (circumstances : ℕ → SiteCircumstance) (op : LifecycleOp) (s : ℕ × HookedSite) :
    op.Res × (ℕ × HookedSite) :=
  let (answer, site) := op.exec (circumstances s.1) s.2
  (answer, (s.1 + 1, site))

def LifecycleProgram.run {α : Type} (circumstances : ℕ → SiteCircumstance)
    (prog : LifecycleProgram α) (s : HookedSite) : α × HookedSite :=
  let (result, t) := prog.eval (lifecycleTurn circumstances) (0, s)
  (result, t.2)

/-- `SqlRepo.GetInterfaceAndPeers` -/
def getInterfaceAndPeers (id : InterfaceIdentifier) :
    LifecycleProgram (Except Error (Interface × List Peer)) := do
  match ← repo (.getInterface id) with
  | .error err => return .error (.wrap "failed to load interface" err)
  | .ok iface =>
    match ← repo (.getInterfacePeers id) with
    | .error err => return .error (.wrap "failed to load peers" err)
    | .ok peers => return .ok (iface, peers)

namespace Manager

variable (m : Manager) (publicKeyFromPrivateKey : String → String) (ui : ContextUserInfo)

def validateInterfaceModifications : Except Error Unit :=
  if !ui.isAdmin then .error (.other "insufficient permissions") else .ok ()

def validateInterfaceCreation (new : Interface) : Except Error Unit :=
  if new.identifier = "" then .error (.other "invalid interface identifier")
  else if !ui.isAdmin then .error (.other "insufficient permissions")
  -- a public key that is set must be that of the private key
  else if new.keyPair.publicKey ≠ "" ∧ new.keyPair.privateKey ≠ "" ∧
      publicKeyFromPrivateKey new.keyPair.privateKey ≠ new.keyPair.publicKey then
    .error (.wrap "invalid public key for given privatekey" .invalidData)
  else .ok ()

def validateInterfaceDeletion : Except Error Unit :=
  if !ui.isAdmin then .error (.other "insufficient permissions") else .ok ()

def createInterface (iface : Interface) : LifecycleProgram (Except Error Interface) := do
  match validateAdminAccessRights ui with
  | .error err => return .error err
  | .ok _ =>
    match ← repo (.getInterface iface.identifier) with
    | .ok _ =>
      return .error (.wrap ("interface " ++ iface.identifier ++ " already exists") .duplicateEntry)
    | .error err =>
      if !err.is .notFound then
        return .error (.wrap ("unable to load existing interface " ++ iface.identifier) err)
      else
        match validateInterfaceCreation publicKeyFromPrivateKey ui iface with
        | .error err => return .error (.wrap "creation not allowed" err)
        | .ok _ =>
          let (result, iface) ← lift (m.saveInterface ui iface)
          match result with
          | .error err => return .error (.wrap "creation failure" err)
          | .ok _ =>
            publish (.interfaceCreated iface)
            return .ok iface

/-- Answers with the interface and its peers as they were before. -/
def updateInterface (iface : Interface) :
    LifecycleProgram (Except Error (Interface × List Peer)) := do
  match validateAdminAccessRights ui with
  | .error err => return .error err
  | .ok _ =>
    match ← getInterfaceAndPeers iface.identifier with
    | .error err =>
      return .error (.wrap ("unable to load existing interface " ++ iface.identifier) err)
    | .ok (_, existingPeers) =>
      match validateInterfaceModifications ui with
      | .error err => return .error (.wrap "update not allowed" err)
      | .ok _ =>
        let (result, iface) ← lift (m.saveInterface ui iface)
        match result with
        | .error err => return .error (.wrap "update failure" err)
        | .ok _ =>
          publish (.interfaceUpdated iface)
          return .ok (iface, existingPeers)

/-- A peer that the device does not have is no failure. -/
def deletionFailure : Except Error Unit → Option Error
  | .error err => if !err.is errNotExist then some err else none
  | .ok _ => none

/-- The loop of `deleteInterfacePeers`. -/
def deletePeers (iface : Interface) (id : InterfaceIdentifier) :
    List Peer → LifecycleProgram (Except Error Unit)
  | [] => return .ok ()
  | peer :: peers => do
    let deleted ← issue (.interface (.manager
      (.deletePeer (m.getController iface) id peer.identifier)))
    match deletionFailure deleted with
    | some err =>
      return .error (.wrap ("wireguard peer deletion failure for " ++ peer.identifier) err)
    | none =>
      match ← repo (.deletePeer peer.identifier) with
      | .error err => return .error (.wrap ("peer deletion failure for " ++ peer.identifier) err)
      | .ok _ => deletePeers iface id peers

def deleteInterfacePeers (id : InterfaceIdentifier) : LifecycleProgram (Except Error Unit) := do
  match ← getInterfaceAndPeers id with
  | .error err => return .error err
  | .ok (iface, allPeers) => m.deletePeers iface id allPeers

/-- The backend and the rows of an interface whose peers are gone. -/
def deleteEmptied (existingInterface : Interface) (id : InterfaceIdentifier)
    (physicalInterface : Except Error PhysicalInterface) :
    LifecycleProgram (Except Error Unit) := do
  match ← issue (.deleteInterface (m.getController existingInterface) id) with
  | .error err => return .error (.wrap "wireguard deletion failure" err)
  | .ok _ =>
    match ← issue (.deleteInterfaceRow id) with
    | .error err => return .error (.wrap "deletion failure" err)
    | .ok _ =>
      let fwMark := match physicalInterface with
        | .ok pi =>
          if existingInterface.firewallMark = 0 then pi.firewallMark
          else existingInterface.firewallMark
        | .error _ => existingInterface.firewallMark
      publish (.routeRemove fwMark existingInterface.getRoutingTable)
      match ← lift (handleInterfacePostSaveHooks existingInterface
          (!existingInterface.isDisabled) false) with
      | .error err => return .error (.wrap "post-delete hooks failed" err)
      | .ok _ =>
        publish (.interfaceDeleted existingInterface)
        return .ok ()

/-- The deletion of an interface that may be deleted. -/
def deleteExisting (existingInterface : Interface) (id : InterfaceIdentifier) :
    LifecycleProgram (Except Error Unit) := do
  let now ← issue (.interface (.manager .timeNow))
  -- simulate a disabled interface
  let existingInterface :=
    { existingInterface with disabled := some now, disabledReason := disabledReasonDeleted }
  let physicalInterface ← issue (.interface (.getInterface (m.getController existingInterface) id))
  match ← lift (handleInterfacePreSaveHooks existingInterface
      (!existingInterface.isDisabled) false) with
  | .error err => return .error (.wrap "pre-delete hooks failed" err)
  | .ok _ =>
    match ← lift (handleInterfacePreSaveActions existingInterface) with
    | .error err => return .error (.wrap "pre-delete actions failed" err)
    | .ok _ =>
      match ← m.deleteInterfacePeers id with
      | .error err => return .error (.wrap "peer deletion failure" err)
      | .ok _ => m.deleteEmptied existingInterface id physicalInterface

def deleteInterface (id : InterfaceIdentifier) : LifecycleProgram (Except Error Unit) := do
  match validateAdminAccessRights ui with
  | .error err => return .error err
  | .ok _ =>
    match ← repo (.getInterface id) with
    | .error err => return .error (.wrap ("unable to find interface " ++ id) err)
    | .ok existingInterface =>
      match validateInterfaceDeletion ui with
      | .error err => return .error (.wrap "deletion not allowed" err)
      | .ok _ => m.deleteExisting existingInterface id

end Manager

end WgPortal.WireGuard
