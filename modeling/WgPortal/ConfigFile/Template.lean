import WgPortal.Domain.Interface
import WgPortal.Library.Calendar
import WgPortal.Library.SectionFile

/-! The configuration files of interfaces, as their template lays them out. -/

namespace WgPortal.ConfigFile

open Domain Library.SectionFile
open Library.Calendar (timeString)

/-- The text of the type in the database and in files -/
def typeText : InterfaceType → String
  | .server => "server"
  | .client => "client"
  | .any => "any"
  | .unset => ""

abbrev Entry := String × String

/-- `key = value` -/
def directive (entry : Entry) : Line := .entry entry.1.toList entry.2.toList

/-- `# label` and what is shown with it -/
def remark (label value : String) : Line := .comment (' ' :: label.toList ++ value.toList)

def timeRemark (label : String) (t : Time) : Line :=
  .comment (' ' :: label.toList ++ timeString t)

/-- `{{- if condition}}` -/
def optional {α : Type} (condition : Bool) (a : α) : List α := if condition then [a] else []

def version : String := "unknown"

def coreEntries (i : Interface) : List Entry :=
  [("PrivateKey", i.keyPair.privateKey), ("Address", cidrsToString i.addresses)]

def miscEntries (i : Interface) : List Entry :=
  optional (i.listenPort ≠ 0) ("ListenPort", toString i.listenPort) ++
  optional (i.mtu ≠ 0) ("MTU", toString i.mtu) ++
  optional (i.dnsStr ≠ "" && i.type = .client) ("DNS", i.dnsStr) ++
  optional (i.firewallMark ≠ 0) ("FwMark", toString i.firewallMark) ++
  optional (i.routingTable ≠ "" && i.routingTable ≠ "off") ("Table", i.routingTable) ++
  optional i.saveConfig ("SaveConfig", "true")

def hookEntries (i : Interface) : List Entry :=
  optional (i.preUp ≠ "") ("PreUp", i.preUp) ++
  optional (i.postUp ≠ "") ("PostUp", i.postUp) ++
  optional (i.preDown ≠ "") ("PreDown", i.preDown) ++
  optional (i.postDown ≠ "") ("PostDown", i.postDown)

/-- The allowed IPs on a server -/
def serverAllowedIPs (p : Peer) : String :=
  cidrsToString p.interface.addresses ++
    if p.extraAllowedIPsStr ≠ "" then ", " ++ p.extraAllowedIPsStr else ""

/-- The entries of a peer on an interface of a type -/
def peerEntries (type : InterfaceType) (p : Peer) : List Entry :=
  [("PublicKey", p.interface.keyPair.publicKey)] ++
  optional (p.presharedKey ≠ "") ("PresharedKey", p.presharedKey) ++
  optional (type = .server) ("AllowedIPs", serverAllowedIPs p) ++
  optional (type = .client && p.allowedIPsStr.value ≠ "") ("AllowedIPs", p.allowedIPsStr.value) ++
  optional (p.endpoint.value ≠ "" && type = .client) ("Endpoint", p.endpoint.value) ++
  optional (p.persistentKeepalive.value ≠ 0 && type = .client)
    ("PersistentKeepalive", toString p.persistentKeepalive.value)

def titleLines : List Line :=
  [remark "AUTOGENERATED FILE - DO NOT EDIT" "",
    remark "This file uses wg-quick format." "",
    remark "See https://man7.org/linux/man-pages/man8/wg-quick.8.html#CONFIGURATION" "",
    remark "Lines starting with the -WGP- tag are used by" "",
    remark "the WireGuard Portal configuration parser." "",
    .blank,
    remark "-WGP- WIREGUARD PORTAL CONFIGURATION FILE" "",
    remark "-WGP- version " version,
    .blank]

def interfaceLines (i : Interface) : List Line :=
  [.header "[Interface]".toList,
    remark "-WGP- Interface: " i.identifier,
    timeRemark "-WGP- Created: " i.base.createdAt,
    timeRemark "-WGP- Updated: " i.base.updatedAt,
    remark "-WGP- Display name: " i.displayName,
    remark "-WGP- Interface mode: " (typeText i.type),
    remark "-WGP- PublicKey = " i.keyPair.publicKey,
    .blank,
    remark "Core settings" ""] ++
  (coreEntries i).map directive ++
  [.blank, remark "Misc. settings (optional)" ""] ++
  (miscEntries i).map directive ++
  [.blank, remark "Interface hooks (optional)" ""] ++
  (hookEntries i).map directive

/-- Of a disabled peer, a blank line is left. -/
def peerLines (type : InterfaceType) (p : Peer) : List Line :=
  .blank :: if p.isDisabled then [] else
    [.header "[Peer]".toList,
      remark "friendly_name = " p.displayName,
      remark "-WGP- Peer: " p.identifier,
      timeRemark "-WGP- Created: " p.base.createdAt,
      timeRemark "-WGP- Updated: " p.base.updatedAt,
      remark "-WGP- Display name: " p.displayName] ++
    optional (p.interface.keyPair.privateKey ≠ "")
      (remark "-WGP- PrivateKey: " p.interface.keyPair.privateKey) ++
    (peerEntries type p).map directive

def fileLines (i : Interface) (peers : List Peer) : List Line :=
  titleLines ++ interfaceLines i ++
  [.blank, .comment [], remark "Peers" "", .comment [], .blank] ++
  peers.flatMap (peerLines i.type) ++ [.blank]

/-- `TemplateHandler.GetInterfaceConfig` -/
def getInterfaceConfig (i : Interface) (peers : List Peer) : String :=
  String.ofList (render (fileLines i peers))

end WgPortal.ConfigFile
