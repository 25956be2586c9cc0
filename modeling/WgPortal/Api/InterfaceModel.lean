import WgPortal.Api.PeerModel
import WgPortal.WireGuard.InterfaceHooks

/-! The interfaces of the API in its versions 0 and 1, which differ in whether they say
which backend an interface uses, and what is left of one that is written back as it was
shown. -/

namespace WgPortal.Api

open Domain Library Adapters WireGuard InterfaceHooks

/-- The type of `Backend`, if there is such a field -/
abbrev Version.Backend : Version → Type
  | v0 => String
  | v1 => Unit

structure Interface (v : Version) where
  identifier : String
  displayName : String
  mode : InterfaceType
  backend : v.Backend
  privateKey : String
  publicKey : String
  disabled : Bool
  disabledReason : String
  saveConfig : Bool
  listenPort : Int
  addresses : List String
  dns : List String
  dnsSearch : List String
  mtu : Int
  firewallMark : ℕ
  routingTable : String
  preUp : String
  postUp : String
  preDown : String
  postDown : String
  peerDefNetwork : List String
  peerDefDns : List String
  peerDefDnsSearch : List String
  peerDefEndpoint : String
  peerDefAllowedIPs : List String
  peerDefMtu : Int
  peerDefPersistentKeepalive : Int
  peerDefFirewallMark : ℕ
  peerDefRoutingTable : String
  peerDefPreUp : String
  peerDefPostUp : String
  peerDefPreDown : String
  peerDefPostDown : String
  enabledPeers : ℕ
  totalPeers : ℕ
  filename : String

def getInterfaceConfigFileName (i : Domain.Interface) : String :=
  truncateString (String.ofList (i.identifier.toList.filter allowedInFileName)) 16 ++ ".conf"

/-- No backend is the local one. -/
def namedBackend (backend : InterfaceBackend) : InterfaceBackend :=
  if backend = "" then localBackendName else backend

def backendFromDomain : (v : Version) → InterfaceBackend → v.Backend
  | .v0, backend => namedBackend backend
  | .v1, _ => ()

def backendToDomain : (v : Version) → v.Backend → InterfaceBackend
  | .v0, backend => backend
  | .v1, _ => ""

def newInterface (v : Version) (src : Domain.Interface) (peers : List Domain.Peer) :
    Interface v where
  identifier := src.identifier
  displayName := src.displayName
  mode := src.type
  backend := backendFromDomain v src.backend
  privateKey := src.keyPair.privateKey
  publicKey := src.keyPair.publicKey
  disabled := src.isDisabled
  disabledReason := src.disabledReason
  saveConfig := src.saveConfig
  listenPort := src.listenPort
  addresses := cidrsToStringSlice src.addresses
  dns := sliceString src.dnsStr
  dnsSearch := sliceString src.dnsSearchStr
  mtu := src.mtu
  firewallMark := src.firewallMark
  routingTable := src.routingTable
  preUp := src.preUp
  postUp := src.postUp
  preDown := src.preDown
  postDown := src.postDown
  peerDefNetwork := sliceString src.peerDefNetworkStr
  peerDefDns := sliceString src.peerDefDnsStr
  peerDefDnsSearch := sliceString src.peerDefDnsSearchStr
  peerDefEndpoint := src.peerDefEndpoint
  peerDefAllowedIPs := sliceString src.peerDefAllowedIPsStr
  peerDefMtu := src.peerDefMtu
  peerDefPersistentKeepalive := src.peerDefPersistentKeepalive
  peerDefFirewallMark := src.peerDefFirewallMark
  peerDefRoutingTable := src.peerDefRoutingTable
  peerDefPreUp := src.peerDefPreUp
  peerDefPostUp := src.peerDefPostUp
  peerDefPreDown := src.peerDefPreDown
  peerDefPostDown := src.peerDefPostDown
  enabledPeers := peers.countP fun peer => !peer.isDisabled
  totalPeers := peers.length
  filename := getInterfaceConfigFileName src

def newDomainInterface {v : Version} (now : Time) (src : Interface v) : Domain.Interface where
  base := Domain.Interface.zero.base
  identifier := src.identifier
  keyPair := ⟨src.privateKey, src.publicKey⟩
  listenPort := src.listenPort
  addresses := cidrsFromArray src.addresses
  dnsStr := sliceToString src.dns
  dnsSearchStr := sliceToString src.dnsSearch
  mtu := src.mtu
  firewallMark := src.firewallMark
  routingTable := src.routingTable
  preUp := src.preUp
  postUp := src.postUp
  preDown := src.preDown
  postDown := src.postDown
  saveConfig := src.saveConfig
  displayName := src.displayName
  type := src.mode
  backend := backendToDomain v src.backend
  driverType := ""
  disabled := if src.disabled then some now else none
  disabledReason := src.disabledReason
  peerDefNetworkStr := sliceToString src.peerDefNetwork
  peerDefDnsStr := sliceToString src.peerDefDns
  peerDefDnsSearchStr := sliceToString src.peerDefDnsSearch
  peerDefEndpoint := src.peerDefEndpoint
  peerDefAllowedIPsStr := sliceToString src.peerDefAllowedIPs
  peerDefMtu := src.peerDefMtu
  peerDefPersistentKeepalive := src.peerDefPersistentKeepalive
  peerDefFirewallMark := src.peerDefFirewallMark
  peerDefRoutingTable := src.peerDefRoutingTable
  peerDefPreUp := src.peerDefPreUp
  peerDefPostUp := src.peerDefPostUp
  peerDefPreDown := src.peerDefPreDown
  peerDefPostDown := src.peerDefPostDown

/-- What should be left of an interface. Lists may lose blanks and empty entries. -/
structure LosslessInterface (m : Manager) (p q : Domain.Interface) : Prop where
  backend : namedBackend q.backend = namedBackend p.backend
  controller : m.getController q = m.getController p
  keyPair : q.keyPair = p.keyPair
  addresses : q.addresses.dedup = p.addresses.dedup
  preUp : q.preUp = p.preUp
  postUp : q.postUp = p.postUp
  preDown : q.preDown = p.preDown
  postDown : q.postDown = p.postDown
  firewallMark : q.firewallMark = p.firewallMark
  routingTable : q.routingTable = p.routingTable
  type : q.type = p.type
  saveConfig : q.saveConfig = p.saveConfig
  peerDefNetwork : sliceString q.peerDefNetworkStr = sliceString p.peerDefNetworkStr
  peerDefDns : sliceString q.peerDefDnsStr = sliceString p.peerDefDnsStr
  peerDefDnsSearch : sliceString q.peerDefDnsSearchStr = sliceString p.peerDefDnsSearchStr
  peerDefEndpoint : q.peerDefEndpoint = p.peerDefEndpoint
  peerDefAllowedIPs : sliceString q.peerDefAllowedIPsStr = sliceString p.peerDefAllowedIPsStr
  peerDefMtu : q.peerDefMtu = p.peerDefMtu
  peerDefPersistentKeepalive : q.peerDefPersistentKeepalive = p.peerDefPersistentKeepalive
  peerDefFirewallMark : q.peerDefFirewallMark = p.peerDefFirewallMark
  peerDefRoutingTable : q.peerDefRoutingTable = p.peerDefRoutingTable
  peerDefPreUp : q.peerDefPreUp = p.peerDefPreUp
  peerDefPostUp : q.peerDefPostUp = p.peerDefPostUp
  peerDefPreDown : q.peerDefPreDown = p.peerDefPreDown
  peerDefPostDown : q.peerDefPostDown = p.peerDefPostDown

/-- The API shows the backend, or it is the local one, and the endpoint is one that `Validate`
leaves as it is. -/
structure RepresentableInterface (v : Version) (p : Domain.Interface) : Prop where
  backend : v = .v1 → namedBackend p.backend = localBackendName
  endpoint : p.validate = .ok p

theorem namedBackend_idem (backend : InterfaceBackend) :
    namedBackend (namedBackend backend) = namedBackend backend := by
  by_cases unnamed : backend = ""
  · rw [namedBackend, namedBackend, if_pos unnamed, if_neg (by decide)]
  · rw [namedBackend, namedBackend, if_neg unnamed, if_neg unnamed]

/-- The backend of an interface that was read and written back. -/
theorem backendToDomain_iff (v : Version) (backend : InterfaceBackend) :
    namedBackend (backendToDomain v (backendFromDomain v backend)) = namedBackend backend ↔
      (v = .v1 → namedBackend backend = localBackendName) := by
  cases v with
  | v0 => exact iff_of_true (namedBackend_idem backend) fun impossible => by cases impossible
  | v1 => exact ⟨fun same _ => same.symm, fun only => (only rfl).symm⟩

/-- The local controller serves those that no other one serves. -/
theorem getController_congr (m : Manager) {i j : Domain.Interface}
    (same : namedBackend i.backend = namedBackend j.backend) :
    m.getController i = m.getController j := by
  have each : ∀ i : Domain.Interface, m.getController i =
      if namedBackend i.backend ∈ m.backends ∧ namedBackend i.backend ≠ localBackendName then
        namedBackend i.backend
      else localBackendName := by
    intro i
    rw [Manager.getController, namedBackend]
    by_cases named : i.backend = ""
    · simp [named]
    · by_cases here : i.backend = localBackendName
      · simp [here]
      · simp [named, here]
  rw [each i, each j, same]

variable {m : Manager} {v : Version} {now : Time} {p : Domain.Interface} {peers : List Domain.Peer}

/-- What is left of an interface whose default endpoint was completed. -/
theorem losslessInterface_iff {base : BaseModel} {endpoint : String}
    (completed : Domain.Interface.completeEndpoint p.peerDefEndpoint p.listenPort = .ok endpoint) :
    LosslessInterface m p
      { newDomainInterface now (newInterface v p peers) with
        peerDefEndpoint := endpoint
        base := base
        addresses := (newDomainInterface now (newInterface v p peers)).addresses.dedup } ↔
      RepresentableInterface v p := by
  have addresses : ((newDomainInterface now (newInterface v p peers)).addresses.dedup).dedup =
      p.addresses.dedup := by
    rw [List.dedup_idem]
    exact congrArg List.dedup (cidrsFromArray_cidrsToStringSlice p.addresses)
  have fixed : p.validate = .ok p ↔ endpoint = p.peerDefEndpoint := by
    rw [Domain.Interface.validate_eq_self_iff, completed, Except.ok.injEq]
  constructor
  · intro lossless
    exact ⟨(backendToDomain_iff v p.backend).mp lossless.backend, fixed.mpr lossless.peerDefEndpoint⟩
  · intro representable
    have backend := (backendToDomain_iff v p.backend).mpr representable.backend
    exact
      { backend := backend
        controller := getController_congr m backend
        keyPair := rfl
        addresses := addresses
        preUp := rfl
        postUp := rfl
        preDown := rfl
        postDown := rfl
        firewallMark := rfl
        routingTable := rfl
        type := rfl
        saveConfig := rfl
        peerDefNetwork := sliceString_sliceToString _
        peerDefDns := sliceString_sliceToString _
        peerDefDnsSearch := sliceString_sliceToString _
        peerDefEndpoint := fixed.mp representable.endpoint
        peerDefAllowedIPs := sliceString_sliceToString _
        peerDefMtu := rfl
        peerDefPersistentKeepalive := rfl
        peerDefFirewallMark := rfl
        peerDefRoutingTable := rfl
        peerDefPreUp := rfl
        peerDefPostUp := rfl
        peerDefPreDown := rfl
        peerDefPostDown := rfl }

/-- The interface stored under this identifier is there, without a loss. -/
def KeptInterface (m : Manager) (id : InterfaceIdentifier) (p : Domain.Interface)
    (t : HookedSite) : Prop :=
  ∃ q, t.site.db.interfaces.find id = some q ∧ LosslessInterface m p q

/-- Write an interface back as the API showed it. -/
def writeBack (m : Manager) (ui : ContextUserInfo) (v : Version) (now : Time)
    (p : Domain.Interface) (peers : List Domain.Peer) :
    LifecycleProgram (Except Error (Domain.Interface × List Domain.Peer)) :=
  m.updateInterface ui (newDomainInterface now (newInterface v p peers))

/-- A stored interface that is written back as it was shown is kept exactly if the API
represents it. -/
theorem writeBack_kept_iff (m : Manager) (ui : ContextUserInfo)
    (circumstances : ℕ → SiteCircumstance) (v : Version) (now : Time) {id : InterfaceIdentifier}
    {s : HookedSite} {p : Domain.Interface} (stored : s.site.db.interfaces.find id = some p)
    (peers : List Domain.Peer) {result : Domain.Interface × List Domain.Peer}
    (ok : ((writeBack m ui v now p peers).run circumstances s).1 = .ok result) :
    KeptInterface m id p ((writeBack m ui v now p peers).run circumstances s).2 ↔
      RepresentableInterface v p := by
  obtain ⟨valid, base, validated, found⟩ := (updateInterface_saved circumstances ok).find_self
  have key : p.identifier = id := Table.key_of_find stored
  have named : (newDomainInterface now (newInterface v p peers)).identifier = id := key
  rw [named] at found
  rw [Domain.Interface.validate_eq_map] at validated
  change (Domain.Interface.completeEndpoint p.peerDefEndpoint p.listenPort).map _ = _ at validated
  cases completed : Domain.Interface.completeEndpoint p.peerDefEndpoint p.listenPort with
  | error err =>
    rw [completed] at validated
    cases validated
  | ok endpoint =>
    rw [completed] at validated
    obtain rfl := Except.ok.inj validated
    constructor
    · rintro ⟨q, here, lossless⟩
      rw [writeBack, found] at here
      obtain rfl := Option.some.inj here
      exact (losslessInterface_iff completed).mp lossless
    · exact fun representable => ⟨_, found, (losslessInterface_iff completed).mpr representable⟩

def mikrotikTunnel (backend : InterfaceBackend) : Domain.Interface :=
  { Domain.Interface.zero with
    identifier := "wg0", backend := backend, peerDefEndpoint := "vpn.example.com:51820" }

def tunnelSite (backend : InterfaceBackend) : HookedSite :=
  ⟨{ noSite with
      db := { Db.empty with interfaces := Table.empty.upsert (mikrotikTunnel backend) } }, []⟩

def routerManager : Manager := ⟨Config.defaultConfig, ["router"], false⟩

/-- Version 0 keeps the interface of another backend. -/
theorem router_kept :
    KeptInterface routerManager "wg0" (mikrotikTunnel "router")
      ((writeBack routerManager systemAdminContextUserInfo .v0 9 (mikrotikTunnel "router") []).run
        (fun _ => calmSite) (tunnelSite "router")).2 := by
  have done : ∃ result, ((writeBack routerManager systemAdminContextUserInfo .v0 9
      (mikrotikTunnel "router") []).run (fun _ => calmSite) (tunnelSite "router")).1 = .ok result :=
    ⟨_, rfl⟩
  obtain ⟨result, ok⟩ := done
  have stored : (tunnelSite "router").site.db.interfaces.find "wg0" =
    some (mikrotikTunnel "router") := rfl
  refine (writeBack_kept_iff routerManager systemAdminContextUserInfo (fun _ => calmSite) .v0 9
    stored [] ok).mpr ⟨fun impossible => ?_, rfl⟩
  cases impossible

/-- Version 1 moves it to the local controller. -/
theorem router_moved :
    (tunnelSite "router").site.db.interfaces.find "wg0" = some (mikrotikTunnel "router") ∧
    (∃ result, ((writeBack routerManager systemAdminContextUserInfo .v1 9
      (mikrotikTunnel "router") []).run (fun _ => calmSite) (tunnelSite "router")).1 = .ok result) ∧
    ¬ KeptInterface routerManager "wg0" (mikrotikTunnel "router")
      ((writeBack routerManager systemAdminContextUserInfo .v1 9 (mikrotikTunnel "router") []).run
        (fun _ => calmSite) (tunnelSite "router")).2 := by
  refine ⟨rfl, ⟨_, rfl⟩, ?_⟩
  rintro ⟨q, found, lossless⟩
  have moved := lossless.controller
  have stored := (congrArg (Option.map routerManager.getController) found).symm
  rw [Option.map_some, moved] at stored
  revert stored
  decide +kernel

end WgPortal.Api
