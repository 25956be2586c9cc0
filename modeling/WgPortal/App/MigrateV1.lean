import WgPortal.Domain.Peer
import WgPortal.Domain.User
import WgPortal.Library.Table

/-! The migration of a database of version 1. The records are inserted one by one, and none of
them is taken back when a later one fails. -/

namespace WgPortal.App.MigrateV1

open Domain Library

structure V1User where
  email : String
  source : UserSource
  isAdmin : Bool
  firstname : String
  lastname : String
  phone : String
  password : String
  createdAt : Time
  updatedAt : Time
  deletedAt : Option Time
deriving DecidableEq

structure V1Device where
  type : InterfaceType
  deviceName : String
  displayName : String
  privateKey : String
  listenPort : Int
  firewallMark : ℕ
  publicKey : String
  mtu : Int
  ipsStr : String
  dnsStr : String
  routingTable : String
  preUp : String
  postUp : String
  preDown : String
  postDown : String
  saveConfig : Bool
  defaultEndpoint : String
  defaultAllowedIPsStr : String
  defaultPersistentKeepalive : Int
  createdAt : Time
  updatedAt : Time
deriving DecidableEq

structure V1Peer where
  deviceName : String
  identifier : String
  email : String
  ignoreGlobalSettings : Bool
  publicKey : String
  presharedKey : String
  allowedIPsStr : String
  allowedIPsSrvStr : String
  endpoint : String
  persistentKeepalive : Int
  privateKey : String
  ipsStr : String
  dnsStr : String
  mtu : Int
  deactivatedAt : Option Time
  deactivatedReason : String
  expiresAt : Option Time
  createdAt : Time
  updatedAt : Time
deriving DecidableEq

structure V1Database where
  version : String
  users : Table V1User.email
  devices : Table V1Device.deviceName
  peers : Table V1Peer.publicKey

/-- The tables that are migrated to. -/
structure Target where
  users : Table User.identifier
  interfaces : Table Interface.identifier
  peers : Table Peer.identifier

def Target.empty : Target := ⟨Table.empty, Table.empty, Table.empty⟩

/-- What may fail, each with the record it is for. -/
inductive Statement where
  | openOld
  | readVersion
  | countUsers
  | countInterfaces
  | countPeers
  | fetchUsers
  | createUser (email : String)
  | fetchDevices
  | createInterface (deviceName : String)
  | fetchPeers
  | findInterface (publicKey : String)
  | findUser (publicKey : String)
  | saveUser (publicKey : String)
  | createPeer (publicKey : String)
deriving DecidableEq

structure Env where
  sourceType : String
  fileExists : Bool
  fault : Statement → Option Error
  /-- the time at which a peer is migrated -/
  now : String → Time

/-- What a part of the migration makes of the tables, with its error. -/
abbrev Migration := Target → Option Error × Target

def ctxSystemV1Migrator : String := "_WG_SYS_V1_MIGRATOR_"
def disabledReasonMigrationDummy : String := "migration dummy user"

/-- Up to the first error -/
def forEach {α : Type} (f : α → Migration) : List α → Migration
  | [], t => (none, t)
  | a :: as, t =>
    match f a t with
    | (some err, t') => (some err, t')
    | (none, t') => forEach f as t'

def wrapping (text : String) (m : Migration) : Migration := fun t =>
  ((m t).1.map (Error.wrap text), (m t).2)

/-- An `INSERT`, which needs a new key. -/
def create {ν : Type} {key : ν → String} (fault : Option Error) (table : Table key) (row : ν) :
    Except Error (Table key) :=
  match fault with
  | some err => .error err
  | none =>
    match table.insert row with
    | some table' => .ok table'
    | none => .error (.other "UNIQUE constraint failed")

def migratedUser (oldUser : V1User) : User :=
  { User.zero with
    base := ⟨ctxSystemV1Migrator, ctxSystemV1Migrator, oldUser.createdAt, oldUser.updatedAt⟩
    identifier := oldUser.email
    email := oldUser.email
    source := oldUser.source
    isAdmin := oldUser.isAdmin
    firstname := oldUser.firstname
    lastname := oldUser.lastname
    phone := oldUser.phone
    password := oldUser.password
    disabled := oldUser.deletedAt
    disabledReason := if oldUser.deletedAt.isSome then "disabled prior to migration" else "" }

/-- The networks of the peers are the addresses with their prefix lengths. -/
def migratedInterface (oldDevice : V1Device) (ips : List Cidr) : Interface :=
  { Interface.zero with
    base := ⟨ctxSystemV1Migrator, ctxSystemV1Migrator, oldDevice.createdAt, oldDevice.updatedAt⟩
    identifier := oldDevice.deviceName
    keyPair := ⟨oldDevice.privateKey, oldDevice.publicKey⟩
    listenPort := oldDevice.listenPort
    addresses := ips
    mtu := oldDevice.mtu
    firewallMark := oldDevice.firewallMark
    routingTable := oldDevice.routingTable
    preUp := oldDevice.preUp
    postUp := oldDevice.postUp
    preDown := oldDevice.preDown
    postDown := oldDevice.postDown
    saveConfig := oldDevice.saveConfig
    displayName := oldDevice.displayName
    type := oldDevice.type
    peerDefNetworkStr := cidrsToString ips
    peerDefDnsStr := oldDevice.dnsStr
    peerDefEndpoint := oldDevice.defaultEndpoint
    peerDefAllowedIPsStr := oldDevice.defaultAllowedIPsStr
    peerDefMtu := oldDevice.mtu
    peerDefPersistentKeepalive := oldDevice.defaultPersistentKeepalive }

def dummyUser (email : String) (now : Time) : User :=
  { User.zero with
    base := ⟨ctxSystemV1Migrator, ctxSystemV1Migrator, now, now⟩
    identifier := email
    email := email
    source := .database
    locked := some now
    lockedReason := disabledReasonMigrationDummy
    notes := "created by migration from v1" }

/-- The peers of a server are clients, and the other way round. -/
def oppositeType : InterfaceType → InterfaceType
  | .client => .server
  | .server => .client
  | .any => .any
  | .unset => .unset

def migratedPeer (oldPeer : V1Peer) (ips : List Cidr) (iface : Interface) : Peer :=
  let overridable := !oldPeer.ignoreGlobalSettings
  { Peer.zero with
    base := ⟨ctxSystemV1Migrator, ctxSystemV1Migrator, oldPeer.createdAt, oldPeer.updatedAt⟩
    endpoint := ⟨oldPeer.endpoint, overridable⟩
    endpointPublicKey := ⟨iface.keyPair.publicKey, overridable⟩
    allowedIPsStr := ⟨oldPeer.allowedIPsStr, overridable⟩
    extraAllowedIPsStr := oldPeer.allowedIPsSrvStr
    presharedKey := oldPeer.presharedKey
    persistentKeepalive := ⟨oldPeer.persistentKeepalive, overridable⟩
    displayName := oldPeer.identifier
    identifier := oldPeer.publicKey
    userIdentifier := oldPeer.email
    interfaceIdentifier := iface.identifier
    disabled := oldPeer.deactivatedAt
    disabledReason := if oldPeer.deactivatedAt.isSome then oldPeer.deactivatedReason else ""
    expiresAt := oldPeer.expiresAt
    interface :=
      { Peer.zero.interface with
        keyPair := ⟨oldPeer.privateKey, oldPeer.publicKey⟩
        type := oppositeType iface.type
        addresses := ips
        dnsStr := ⟨oldPeer.dnsStr, overridable⟩
        dnsSearchStr := ⟨iface.peerDefDnsSearchStr, overridable⟩
        mtu := ⟨oldPeer.mtu, overridable⟩
        firewallMark := ⟨iface.peerDefFirewallMark, overridable⟩
        routingTable := ⟨iface.peerDefRoutingTable, overridable⟩
        preUp := ⟨iface.peerDefPreUp, overridable⟩
        postUp := ⟨iface.peerDefPostUp, overridable⟩
        preDown := ⟨iface.peerDefPreDown, overridable⟩
        postDown := ⟨iface.peerDefPostDown, overridable⟩ } }

section Migration

variable (env : Env) (source : V1Database)

/-- The error of a statement that only reads -/
def reading (statement : Statement) (text : String) : Migration :=
  wrapping text fun t => (env.fault statement, t)

def migrateUser (oldUser : V1User) : Migration := fun t =>
  match create (env.fault (.createUser oldUser.email)) t.users (migratedUser oldUser) with
  | .error err => (some (.wrap ("failed to migrate user " ++ oldUser.email) err), t)
  | .ok users => (none, { t with users := users })

/-- `Find` leaves out the users with a time of deletion. -/
def liveUsers : List V1User := source.users.rows.filter (·.deletedAt.isNone)

def migrateV1Users : Migration := fun t =>
  match reading env .fetchUsers "unable to fetch old user records" t with
  | (some err, t) => (some err, t)
  | (none, t) => forEach (migrateUser env) (liveUsers source) t

def migrateInterface (oldDevice : V1Device) : Migration := fun t =>
  match cidrsFromString oldDevice.ipsStr with
  | none =>
    (some (.wrap ("failed to parse " ++ oldDevice.deviceName ++ " ip addresses")
      (.other "invalid prefix")), t)
  | some ips =>
    match create (env.fault (.createInterface oldDevice.deviceName)) t.interfaces
        (migratedInterface oldDevice ips) with
    | .error err => (some (.wrap ("failed to migrate device " ++ oldDevice.deviceName) err), t)
    | .ok interfaces => (none, { t with interfaces := interfaces })

def migrateV1Interfaces : Migration := fun t =>
  match reading env .fetchDevices "unable to fetch old device records" t with
  | (some err, t) => (some err, t)
  | (none, t) => forEach (migrateInterface env) source.devices.rows t

/-- An owner that is not stored is made up. -/
def findOwner (oldPeer : V1Peer) : Migration := fun t =>
  match env.fault (.findUser oldPeer.publicKey) with
  | some err =>
    (some (.wrap ("failed to find user " ++ oldPeer.email ++ " for peer " ++ oldPeer.publicKey)
      err), t)
  | none =>
    match t.users.find oldPeer.email with
    | some _ => (none, t)
    | none =>
      match env.fault (.saveUser oldPeer.publicKey) with
      | some err => (some (.wrap ("failed to migrate dummy user " ++ oldPeer.email) err), t)
      | none =>
        let user := dummyUser oldPeer.email (env.now oldPeer.publicKey)
        (none, { t with users := t.users.upsert user })

def migratePeer (oldPeer : V1Peer) : Migration := fun t =>
  match cidrsFromString oldPeer.ipsStr with
  | none =>
    (some (.wrap ("failed to parse " ++ oldPeer.publicKey ++ " ip addresses")
      (.other "invalid prefix")), t)
  | some ips =>
    let found : Except Error Interface :=
      match env.fault (.findInterface oldPeer.publicKey), t.interfaces.find oldPeer.deviceName with
      | some err, _ => .error err
      | none, none => .error .notFound
      | none, some iface => .ok iface
    match found with
    | .error err =>
      (some (.wrap ("failed to find interface " ++ oldPeer.deviceName ++ " for peer " ++
        oldPeer.publicKey) err), t)
    | .ok iface =>
      match findOwner env oldPeer t with
      | (some err, t) => (some err, t)
      | (none, t) =>
        match create (env.fault (.createPeer oldPeer.publicKey)) t.peers
            (migratedPeer oldPeer ips iface) with
        | .error err =>
          (some (.wrap ("failed to migrate peer " ++ oldPeer.identifier ++ " (" ++
            oldPeer.publicKey ++ ")") err), t)
        | .ok peers => (none, { t with peers := peers })

def migrateV1Peers : Migration := fun t =>
  match reading env .fetchPeers "unable to fetch old peer records" t with
  | (some err, t) => (some err, t)
  | (none, t) => forEach (migratePeer env) source.peers.rows t

/-- One of the three tables must be empty, and is read for that. -/
def validateTable (statement : Statement) (table records : String) (count : ℕ) : Option Error :=
  match env.fault statement with
  | some err => some (.wrap ("failed to check " ++ table ++ " table") err)
  | none =>
    if 0 < count then
      some (.other ("target database contains " ++ toString count ++ " " ++ records ++
        ", please use an empty database for migration"))
    else none

def validateTargetDatabase (t : Target) : Option Error :=
  (validateTable env .countUsers "user" "users" t.users.rows.length).or
    ((validateTable env .countInterfaces "interface" "interfaces" t.interfaces.rows.length).or
      (validateTable env .countPeers "peer" "peers" t.peers.rows.length))

def latestVersion : String := "1.0.9"

/-- Whether the source can be opened and is of the last version. -/
def validateSource : Option Error :=
  if env.sourceType ∉ ["mysql", "postgres", "mssql", "sqlite"] then some (.other "unsupported database")
  else if env.sourceType = "sqlite" && !env.fileExists then
    some (.wrap "invalid source database" (.other "file does not exist"))
  else
    match env.fault .openOld, env.fault .readVersion with
    | some err, _ => some (.wrap "failed to open old database" err)
    | none, some err => some (.wrap "unable to validate old database" err)
    | none, none =>
      if source.version ≠ latestVersion then
        some (.other ("unsupported old version, update to database version " ++ latestVersion ++
          " first"))
      else none

/-- One part after the other, up to the first error. -/
def inSequence (first second : Migration) : Migration := fun t =>
  match first t with
  | (some err, t) => (some err, t)
  | (none, t) => second t

def migrateFromV1 : Migration := fun t =>
  match (validateSource env source).or
      ((validateTargetDatabase env t).map (.wrap "target database validation failed")) with
  | some err => (some err, t)
  | none =>
    inSequence (wrapping "user migration failed" (migrateV1Users env source))
      (inSequence (wrapping "user migration failed" (migrateV1Interfaces env source))
        (wrapping "peer migration failed" (migrateV1Peers env source))) t

end Migration

end WgPortal.App.MigrateV1
