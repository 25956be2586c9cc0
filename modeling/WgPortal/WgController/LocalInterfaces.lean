import WgPortal.Domain.CidrConversions
import WgPortal.Domain.Interface
import WgPortal.Library.Base64Text
import WgPortal.Library.Program
import WgPortal.WgController.Wgctrl

/-! The interface functions of `LocalController` with the calls of netlink and of `wgctrl` that
they make, of which any may fail. -/

namespace WgPortal.WgController.LocalInterfaces

open Domain Library
open Library.Net (IPNet prefixOf shortNet)

/-- `wgtypes.Key` -/
abbrev Key := { bytes : List UInt8 // bytes.length = 32 }

def keyText (key : Key) : String := String.ofList (Base64.encode Base64.std key.1)

/-- `wgtypes.NewKey` -/
def newKey (bytes : List UInt8) : Except Error Key :=
  if size : bytes.length = 32 then .ok ⟨bytes, size⟩
  else .error (.other ("wgtypes: incorrect key size: " ++ toString bytes.length))

/-- What is decoded before an error -/
def getPrivateKeyBytes (keyPair : KeyPair) : List UInt8 :=
  Base64.decodePrefix Base64.std (keyPair.privateKey.toList.filter (!Base64.isLineEnd ·))

/-- A WireGuard interface of the kernel; port zero stands for any port. -/
structure Link (w : Wgtypes) where
  privateKey : Key
  listenPort : Int
  firewallMark : ℕ
  mtu : Int
  addresses : List Cidr
  up : Bool
  device : Device w

/-- What netlink tells about the addresses of a link. An address with another length may stand in
the way of a new one, and with an address of IPv4, others of its network may go. -/
structure Kernel where
  publicKey : Key → Key
  initialKey : Key
  initialMtu : Int
  replace : List Cidr → Cidr → List Cidr
  mem_of_replace : ∀ {addresses c b}, b ∈ replace addresses c → b ∈ addresses ∨ b = c
  mem_replace : ∀ {addresses c b}, b ∈ addresses → b.addr ≠ c.addr → b ∈ replace addresses c
  mem_replace_self : ∀ {addresses c}, (∀ b ∈ addresses, b.addr = c.addr → b = c) →
    c ∈ replace addresses c
  delete : List Cidr → Cidr → List Cidr
  mem_of_delete : ∀ {addresses c b}, b ∈ delete addresses c → b ∈ addresses ∧ b ≠ c
  mem_delete : ∀ {addresses c b}, b ∈ addresses → b ≠ c →
    ¬ (b.addr.family = .v4 ∧ b.masked = c.masked) → b ∈ delete addresses c

/-- The interfaces of a node -/
abbrev Host (w : Wgtypes) := InterfaceIdentifier → Option (Link w)

/-- `wgtypes.Device` without its peers -/
structure WgDevice where
  privateKey : Key
  publicKey : Key
  listenPort : Int
  firewallMark : ℕ

structure LinkAttrs where
  mtu : Int
  operUnknown : Bool

/-- `wgtypes.Config` without peers; without a mark, the mark stays. -/
structure DeviceConfig where
  privateKey : Key
  listenPort : Int
  firewallMark : Option ℕ

inductive LocalOp where
  | device (name : InterfaceIdentifier)
  | linkByName (name : InterfaceIdentifier)
  | addrList (name : InterfaceIdentifier)
  | linkAdd (name : InterfaceIdentifier)
  | linkSetMTU (name : InterfaceIdentifier) (mtu : Int)
  | addrReplace (name : InterfaceIdentifier) (addr : IPNet)
  | addrDel (name : InterfaceIdentifier) (addr : IPNet)
  | linkSetUp (name : InterfaceIdentifier)
  | linkSetDown (name : InterfaceIdentifier)
  | configureDevice (name : InterfaceIdentifier) (cfg : DeviceConfig)
  | linkDel (name : InterfaceIdentifier)

namespace LocalOp

abbrev Val : LocalOp → Type
  | device _ => WgDevice
  | linkByName _ => LinkAttrs
  | addrList _ => List IPNet
  | _ => Unit

abbrev Res (op : LocalOp) : Type := Except Error op.Val

def name : LocalOp → InterfaceIdentifier
  | device name | linkByName name | addrList name | linkAdd name | linkSetMTU name _
  | addrReplace name _ | addrDel name _ | linkSetUp name | linkSetDown name
  | configureDevice name _ | linkDel name => name

end LocalOp

abbrev LocalProgram := Program LocalOp LocalOp.Res

def issue (op : LocalOp) : LocalProgram op.Res := Program.perform op

/-- `netlink.LinkNotFoundError` -/
def errLinkNotFound : Error := .other "Link not found"

variable {w : Wgtypes}

/-- A link that was just added -/
def Kernel.fresh (kernel : Kernel) : Link w where
  privateKey := kernel.initialKey
  listenPort := 0
  firewallMark := 0
  mtu := kernel.initialMtu
  addresses := []
  up := false
  device := Device.empty

namespace LocalOp

variable (kernel : Kernel)

/-- What an operation answers about a link, and what it makes of it. -/
def onLink (link : Link w) : (op : LocalOp) → Except Error (op.Val × Option (Link w))
  | device _ =>
    .ok (⟨link.privateKey, kernel.publicKey link.privateKey, link.listenPort, link.firewallMark⟩,
      some link)
  | linkByName _ => .ok (⟨link.mtu, link.up⟩, some link)
  | addrList _ => .ok (link.addresses.map shortNet, some link)
  | linkAdd _ => .error (.other "file exists")
  | linkSetMTU _ mtu => .ok ((), some { link with mtu := mtu })
  | addrReplace _ addr =>
    match prefixOf addr with
    | none => .error (.other "invalid argument")
    | some c => .ok ((), some { link with addresses := kernel.replace link.addresses c })
  | addrDel _ addr =>
    match prefixOf addr with
    | none => .error (.other "invalid argument")
    | some c =>
      if c ∈ link.addresses then
        .ok ((), some { link with addresses := kernel.delete link.addresses c })
      else .error (.other "cannot assign requested address")
  | linkSetUp _ => .ok ((), some { link with up := true })
  | linkSetDown _ => .ok ((), some { link with up := false })
  | configureDevice _ cfg => .ok ((), some { link with
      privateKey := cfg.privateKey
      listenPort := cfg.listenPort
      firewallMark := cfg.firewallMark.getD link.firewallMark })
  | linkDel _ => .ok ((), none)

def withoutLink : (op : LocalOp) → Except Error (op.Val × Option (Link w))
  | linkAdd _ => .ok ((), some kernel.fresh)
  | device _ => .error errNotExist
  | configureDevice .. => .error errNotExist
  | linkByName _ => .error errLinkNotFound
  | addrList _ => .error errLinkNotFound
  | linkSetMTU .. => .error errLinkNotFound
  | addrReplace .. => .error errLinkNotFound
  | addrDel .. => .error errLinkNotFound
  | linkSetUp _ => .error errLinkNotFound
  | linkSetDown _ => .error errLinkNotFound
  | linkDel _ => .error errLinkNotFound

def outcome (op : LocalOp) : Option (Link w) → Except Error (op.Val × Option (Link w))
  | some link => op.onLink kernel link
  | none => op.withoutLink kernel

/-- A failing operation has no effect. -/
def exec (fault : Option String) (op : LocalOp) (host : Host w) : op.Res × Host w :=
  match fault with
  | some text => (.error (.other text), host)
  | none =>
    match op.outcome kernel (host op.name) with
    | .error err => (.error err, host)
    | .ok (answer, link) => (.ok answer, Function.update host op.name link)

/-- The operations of one call in a row; `faults` are the texts of those that fail. -/
def inTurn (faults : ℕ → Option String) (op : LocalOp) (s : ℕ × Host w) :
    op.Res × (ℕ × Host w) :=
  let (answer, host) := op.exec kernel (faults s.1) s.2
  (answer, (s.1 + 1, host))

end LocalOp

def convertWireGuardInterface (name : InterfaceIdentifier) (device : WgDevice) :
    LocalProgram (Except Error PhysicalInterface) := do
  match ← issue (.linkByName name) with
  | .error err => return .error (.wrap ("netlink error for " ++ name) err)
  | .ok lowLevelInterface =>
    match ← issue (.addrList name) with
    | .error err => return .error (.wrap ("ip read error for " ++ name) err)
    | .ok ipAddresses =>
      return .ok {
        identifier := name
        keyPair := ⟨keyText device.privateKey, keyText device.publicKey⟩
        listenPort := device.listenPort
        addresses := ipAddresses.filterMap Cidr.fromIpNet
        mtu := lowLevelInterface.mtu
        firewallMark := device.firewallMark
        deviceUp := lowLevelInterface.operUnknown
        importSource := controllerTypeLocal
        deviceType := "Linux kernel"
        backendExtras := none }

def getInterface (id : InterfaceIdentifier) : LocalProgram (Except Error PhysicalInterface) := do
  match ← issue (.device id) with
  | .error err => return .error err
  | .ok device => convertWireGuardInterface id device

def createLowLevelInterface (id : InterfaceIdentifier) : LocalProgram (Except Error Unit) := do
  match ← issue (.linkAdd id) with
  | .error err => return .error (.wrap "link add failed" err)
  | .ok _ => return .ok ()

def getOrCreateInterface (id : InterfaceIdentifier) :
    LocalProgram (Except Error PhysicalInterface) := do
  match ← getInterface id with
  | .ok device => return .ok device
  | .error err =>
    if !err.is errNotExist then return .error (.wrap "device error" err)
    match ← createLowLevelInterface id with
    | .error err => return .error err
    | .ok _ => getInterface id

def replaceAddresses (name : InterfaceIdentifier) :
    List Cidr → LocalProgram (Except Error Unit)
  | [] => return .ok ()
  | addr :: addresses => do
    match ← issue (.addrReplace name (Cidr.ipNet addr)) with
    | .error err =>
      return .error (.wrap ("failed to set ip " ++ String.ofList (NetIP.Prefix.text addr)) err)
    | .ok _ => replaceAddresses name addresses

/-- The addresses that are there and not wanted -/
def removeAddresses (name : InterfaceIdentifier) (wanted : List Cidr) :
    List IPNet → LocalProgram (Except Error Unit)
  | [] => return .ok ()
  | rawAddr :: rawAddresses => do
    let netlinkAddr := Cidr.fromIpNet rawAddr
    if wanted.any fun addr => some addr = netlinkAddr then
      removeAddresses name wanted rawAddresses
    else
      match ← issue (.addrDel name rawAddr) with
      | .error err =>
        return .error (.wrap ("failed to remove deprecated ip " ++
          String.ofList ((netlinkAddr.map NetIP.Prefix.text).getD [])) err)
      | .ok _ => removeAddresses name wanted rawAddresses

def setMtu (name : InterfaceIdentifier) (mtu : Int) : LocalProgram (Except Error Unit) := do
  if mtu ≠ 0 then
    match ← issue (.linkSetMTU name mtu) with
    | .error err => return .error (.wrap "mtu error" err)
    | .ok _ => return .ok ()
  else return .ok ()

def setState (name : InterfaceIdentifier) (up : Bool) : LocalProgram (Except Error Unit) := do
  if up then
    match ← issue (.linkSetUp name) with
    | .error err => return .error (.wrap "failed to bring up device" err)
    | .ok _ => return .ok ()
  else
    match ← issue (.linkSetDown name) with
    | .error err => return .error (.wrap "failed to bring down device" err)
    | .ok _ => return .ok ()

def updateLowLevelInterface (pi : PhysicalInterface) : LocalProgram (Except Error Unit) := do
  match ← issue (.linkByName pi.identifier) with
  | .error err => return .error err
  | .ok _ =>
    match ← setMtu pi.identifier pi.mtu with
    | .error err => return .error err
    | .ok _ =>
      match ← replaceAddresses pi.identifier pi.addresses with
      | .error err => return .error err
      | .ok _ =>
        match ← issue (.addrList pi.identifier) with
        | .error err => return .error (.wrap "failed to fetch interface ips" err)
        | .ok rawAddresses =>
          match ← removeAddresses pi.identifier pi.addresses rawAddresses with
          | .error err => return .error err
          | .ok _ => setState pi.identifier pi.deviceUp

def updateWireGuardInterface (pi : PhysicalInterface) : LocalProgram (Except Error Unit) := do
  match newKey (getPrivateKeyBytes pi.keyPair) with
  | .error err => return .error err
  | .ok pKey =>
    let fwMark := if pi.firewallMark ≠ 0 then some pi.firewallMark else none
    issue (.configureDevice pi.identifier ⟨pKey, pi.listenPort, fwMark⟩)

def saveInterface (id : InterfaceIdentifier)
    (updateFunc : PhysicalInterface → Except Error PhysicalInterface) :
    LocalProgram (Except Error Unit) := do
  match ← getOrCreateInterface id with
  | .error err => return .error err
  | .ok physicalInterface =>
    match updateFunc physicalInterface with
    | .error err => return .error err
    | .ok physicalInterface =>
      match ← updateLowLevelInterface physicalInterface with
      | .error err => return .error err
      | .ok _ => updateWireGuardInterface physicalInterface

/-- A link that is not there is no error. -/
def deleteInterface (id : InterfaceIdentifier) : LocalProgram (Except Error Unit) := do
  match ← issue (.linkByName id) with
  | .error err =>
    if err.is errLinkNotFound then return .ok ()
    return .error (.wrap "unable to find low level interface" err)
  | .ok _ =>
    match ← issue (.linkDel id) with
    | .error err => return .error (.wrap "failed to delete low level interface" err)
    | .ok _ => return .ok ()

end WgPortal.WgController.LocalInterfaces
