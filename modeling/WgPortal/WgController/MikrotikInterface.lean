import WgPortal.Library.Program
import WgPortal.Library.Table
import WgPortal.WgController.MikrotikObjects

/-! Saving an interface to a Mikrotik router through its API, of which any request may fail. -/

namespace WgPortal.WgController.Mikrotik

open Domain Library
open Library.NetIP (Family)

/-- Where the API has its objects -/
inductive Path where
  | wireguard
  | interface
  | address (family : Family)
deriving DecidableEq

/-- The requests of the client, and the call of the function that changes the interface -/
inductive ApiOp where
  | query (path : Path) (propList : List String) (filters : List (String × String))
  | get (path : Path) (id : String) (propList : List String)
  | create (path : Path) (payload : GenericJsonObject)
  | update (path : Path) (id : String) (payload : GenericJsonObject)
  | delete (path : Path) (id : String)
  | updateFunc (pi : PhysicalInterface)

/-- What is replied: data, or the text of an API error -/
abbrev ApiOp.Res : ApiOp → Type
  | query .. => Except String (List GenericJsonObject)
  | get .. => Except String GenericJsonObject
  | create .. => Except String GenericJsonObject
  | update .. => Except String GenericJsonObject
  | delete .. => Except String Unit
  | updateFunc _ => Except Error PhysicalInterface

abbrev ApiProgram := Program ApiOp ApiOp.Res

def ApiProgram.issue (op : ApiOp) : ApiProgram op.Res := Program.perform op

open ApiProgram (issue)

/-- `cidr.String()` -/
def cidrText (c : Cidr) : String := String.ofList c.text

section Controller

def addressFilters (deviceName : String) : List (String × String) :=
  [("interface", deviceName), ("dynamic", "false"), ("disabled", "false")]

def queryAddresses (family : Family) (deviceName : String) :
    ApiProgram (Except String (List GenericJsonObject)) :=
  issue (.query (.address family) [".id", "address", "network"] (addressFilters deviceName))

/-- Both queries are made, whatever the other one answers. -/
def loadIpAddresses (deviceName : String) :
    ApiProgram (Except Error (List GenericJsonObject × List GenericJsonObject)) := do
  let v4 ← queryAddresses .v4 deviceName
  let v6 ← queryAddresses .v6 deviceName
  match v4, v6 with
  | .error err, _ =>
    return .error
      (.other ("failed to query IPv4 addresses for interface " ++ deviceName ++ ": " ++ err))
  | _, .error err =>
    return .error
      (.other ("failed to query IPv6 addresses for interface " ++ deviceName ++ ": " ++ err))
  | .ok v4, .ok v6 => return .ok (v4, v6)

/-- The counters that the interface itself has are left out of the result. -/
def loadInterfaceData (wireGuardObj : GenericJsonObject) :
    ApiProgram (Except Error PhysicalInterface) := do
  let deviceId := wireGuardObj.getString ".id"
  let deviceName := wireGuardObj.getString "name"
  match ← issue (.get .interface deviceId ["name", "rx-byte", "tx-byte"]) with
  | .error err => return .error (.other ("failed to query interface " ++ deviceId ++ ": " ++ err))
  | .ok _ =>
    match ← loadIpAddresses deviceName with
    | .error err =>
      return .error
        (.other ("failed to query IP addresses for interface " ++ deviceId ++ ": " ++ err.text))
    | .ok (ipv4, ipv6) =>
      return .ok (convertWireGuardInterface wireGuardObj (convertIpAddresses ipv4 ipv6))

/-- The data of a reply, which an error does not have -/
def replyData : Except String GenericJsonObject → GenericJsonObject
  | .ok data => data
  | .error _ => .ofList []

/-- `%v` of the error of a reply -/
def replyError {α : Type} : Except String α → String
  | .ok _ => "no error"
  | .error err => err

def isOk {ε α : Type} : Except ε α → Bool
  | .ok _ => true
  | .error _ => false

/-- What is asked about an interface -/
def interfaceProperties : List String :=
  [".id", "name", "public-key", "private-key", "listen-port", "mtu", "disabled", "running"]

/-- Whether the interface was created is asked of the reply to the query. -/
def getOrCreateInterface (id : InterfaceIdentifier) :
    ApiProgram (Except Error PhysicalInterface) := do
  let wgReply ← issue (.query .wireguard interfaceProperties [("name", id)])
  match wgReply with
  | .ok (first :: _) => loadInterfaceData first
  | _ =>
    let createReply ← issue (.create .wireguard (.ofList [("name", .string id)]))
    if isOk wgReply then loadInterfaceData (replyData createReply)
    else
      return .error (.other ("failed to create interface " ++ id ++ ": " ++ replyError createReply))

/-- The first loop of `updateIpAddresses` -/
def deleteObsolete (currentV4 currentV6 : List GenericJsonObject) :
    List Cidr → ApiProgram (Except Error Unit)
  | [] => return .ok ()
  | addr :: obsolete => do
    let family := addr.addr.family
    let current := if family = .v4 then currentV4 else currentV6
    match current.find? fun a => a.getString "address" = cidrText addr with
    | none => deleteObsolete currentV4 currentV6 obsolete
    | some a =>
      match ← issue (.delete (.address family) (a.getString ".id")) with
      | .error err =>
        let version := if family = .v4 then "IPv4" else "IPv6"
        return .error (.other ("failed to delete obsolete " ++ version ++ " address " ++
          cidrText addr ++ ": " ++ err))
      | .ok _ => deleteObsolete currentV4 currentV6 obsolete

/-- The second loop -/
def createNew (deviceName : String) : List Cidr → ApiProgram (Except Error Unit)
  | [] => return .ok ()
  | addr :: new => do
    match ← issue (.create (.address addr.addr.family)
      (.ofList [("address", .string (cidrText addr)), ("interface", .string deviceName)])) with
    | .error err =>
      return .error (.other ("failed to create new address " ++ cidrText addr ++ ": " ++ err))
    | .ok _ => createNew deviceName new

def updateIpAddresses (deviceName : String) (currentV4 currentV6 : List GenericJsonObject)
    (new obsolete : List Cidr) : ApiProgram (Except Error Unit) := do
  match ← deleteObsolete currentV4 currentV6 obsolete with
  | .error err => return .error err
  | .ok _ => createNew deviceName new

/-- What `updateInterface` writes -/
def interfacePayload (pi : PhysicalInterface) (extras : MikrotikInterfaceExtras) :
    GenericJsonObject :=
  .ofList
    [("name", .string pi.identifier),
      ("comment", .string extras.comment),
      ("mtu", .string (toString pi.mtu)),
      ("listen-port", .string (toString pi.listenPort)),
      ("private-key", .string pi.keyPair.privateKey),
      ("disabled", .string (formatBool (!pi.deviceUp)))]

def updateInterface (pi : PhysicalInterface) (extras : MikrotikInterfaceExtras) :
    ApiProgram (Except Error Unit) := do
  match ← issue (.update .wireguard extras.id (interfacePayload pi extras)) with
  | .error err =>
    return .error (.other ("failed to update interface " ++ pi.identifier ++ ": " ++ err))
  | .ok _ =>
    match ← loadIpAddresses pi.identifier with
    | .error err =>
      return .error (.other ("failed to load current addresses for interface " ++ pi.identifier ++
        ": " ++ err.text))
    | .ok (currentV4, currentV6) =>
      let currentAddresses := convertIpAddresses currentV4 currentV6
      let newAddresses := pi.addresses.filter fun addr => addr ∉ currentAddresses
      let obsoleteAddresses := currentAddresses.filter fun addr => addr ∉ pi.addresses
      let updated ←
        updateIpAddresses pi.identifier currentV4 currentV6 newAddresses obsoleteAddresses
      match updated with
      | .error err =>
        return .error (.other ("failed to update IP addresses for interface " ++ pi.identifier ++
          ": " ++ err.text))
      | .ok _ => return .ok ()

/-- What stands for a panic of a type assertion -/
def noExtras : Error := .other "interface conversion: interface is nil"

/-- `SaveInterface`; the identifier of the device is not changed. -/
def saveInterface (id : InterfaceIdentifier) : ApiProgram (Except Error Unit) := do
  match ← getOrCreateInterface id with
  | .error err => return .error err
  | .ok physicalInterface =>
    match physicalInterface.backendExtras with
    | none => return .error noExtras
    | some extras =>
      match ← issue (.updateFunc physicalInterface) with
      | .error err => return .error err
      | .ok updated =>
        match updated.backendExtras with
        | none => return .error noExtras
        | some newExtras => updateInterface updated { newExtras with id := extras.id }

end Controller

end WgPortal.WgController.Mikrotik
