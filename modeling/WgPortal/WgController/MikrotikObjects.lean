import WgPortal.Config.Duration

/-! The objects that the API of a Mikrotik router sends and gets, and what they say about peers and
interfaces. -/

namespace WgPortal.WgController.Mikrotik

open Domain Config

/-- A value of a decoded object. A number that is no integer is known by its whole part and its
text, and anything else by its text. -/
inductive JsonValue where
  | string (value : String)
  | bool (value : Bool)
  | int (value : Int)
  | float (whole : Int) (text : String)
  | other (text : String)
deriving DecidableEq

abbrev GenericJsonObject := String → Option JsonValue

/-- `strconv.Atoi` -/
def atoi (s : String) : Option Int :=
  (Interface.signedDecimal s.toList).filter fun n => -2 ^ 63 ≤ n ∧ n < 2 ^ 63

/-- `strconv.ParseBool` -/
def parseBool (s : String) : Option Bool :=
  if s ∈ ["1", "t", "T", "true", "TRUE", "True"] then some true
  else if s ∈ ["0", "f", "F", "false", "FALSE", "False"] then some false
  else none

/-- `strconv.FormatBool` -/
def formatBool (b : Bool) : String := if b then "true" else "false"

namespace GenericJsonObject

def ofList (entries : List (String × JsonValue)) : GenericJsonObject :=
  fun key => (entries.find? (·.1 = key)).map Prod.snd

variable (o : GenericJsonObject) (key : String)

def getString : String :=
  match o key with
  | some (.string value) => value
  | some (.bool value) => formatBool value
  | some (.int value) => toString value
  | some (.float _ text) => text
  | some (.other text) => text
  | none => ""

def getInt : Int :=
  match o key with
  | some (.int value) => value
  | some (.float whole _) => whole
  | some (.string value) => (atoi value).getD 0
  | _ => 0

def getBool : Bool :=
  match o key with
  | some (.bool value) => value
  | some (.int value) => value = 1
  | some (.float whole _) => whole = 1
  | some (.string value) => (parseBool value).getD false
  | _ => false

end GenericJsonObject

/-- The digits behind the decimal point, without zeros at the end -/
def fractionText (digits v : ℕ) : List Char :=
  let text := Nat.toDigits 10 (v % 10 ^ digits)
  let padded := List.replicate (digits - text.length) '0' ++ text
  let shown := (padded.reverse.dropWhile (· = '0')).reverse
  if digits = 0 ∨ shown = [] then [] else '.' :: shown

/-- `time.Duration.String` -/
def durationText (d : Duration) : String :=
  let u := d.natAbs
  let number (digits : ℕ) : List Char := Nat.toDigits 10 (u / 10 ^ digits) ++ fractionText digits u
  let seconds := u / 10 ^ 9
  let text : List Char :=
    if u = 0 then "0s".toList
    else if u < 10 ^ 3 then number 0 ++ "ns".toList
    else if u < 10 ^ 6 then number 3 ++ "µs".toList
    else if u < 10 ^ 9 then number 6 ++ "ms".toList
    else
      (if 0 < seconds / 3600 then Nat.toDigits 10 (seconds / 3600) ++ ['h'] else []) ++
      (if 0 < seconds / 60 then Nat.toDigits 10 (seconds / 60 % 60) ++ ['m'] else []) ++
      (Nat.toDigits 10 (seconds % 60) ++ fractionText 9 u ++ ['s'])
  String.ofList (if d < 0 then '-' :: text else text)

/-- `(time.Duration(n) * time.Second).String()` -/
def secondsText (n : Int) : String := durationText (wrapInt64 (n * second))

example : secondsText 25 = "25s" ∧ secondsText 5400 = "1h30m0s" := by decide

/-- The whole seconds of a text, or none at all -/
def secondsOf (text : String) : Int := ((parseDuration text).map (Int.tdiv · second)).getD 0

/-- `uint64(n)` -/
def toUint64 (n : Int) : ℕ := (n % 2 ^ 64).toNat

def convertWireGuardPeer (now : Time) (peer : GenericJsonObject) : PhysicalPeer :=
  let address := peer.getString "current-endpoint-address"
  let port := peer.getString "current-endpoint-port"
  { identifier := peer.getString "public-key"
    endpoint := if address ≠ "" ∧ port ≠ "" then address ++ ":" ++ port else ""
    allowedIPs := cidrsOrNil (peer.getString "allowed-address")
    keyPair := ⟨peer.getString "private-key", peer.getString "public-key"⟩
    presharedKey := peer.getString "preshared-key"
    persistentKeepalive := secondsOf (peer.getString "persistent-keepalive")
    -- the handshake is a while ago, unless there was none
    lastHandshake :=
      if peer.getString "last-handshake" ≠ "" then
        ((parseDuration (peer.getString "last-handshake")).map (now - ·)).getD 0
      else 0
    protocolVersion := 0
    bytesUpload := toUint64 (peer.getInt "rx")
    bytesDownload := toUint64 (peer.getInt "tx")
    importSource := controllerTypeMikrotik
    backendExtras := some <| .mikrotik
      { id := peer.getString ".id"
        name := peer.getString "name"
        comment := peer.getString "comment"
        isResponder := peer.getBool "responder"
        disabled := peer.getBool "disabled"
        clientEndpoint := peer.getString "client-endpoint"
        clientAddress := peer.getString "client-address"
        clientDns := peer.getString "client-dns"
        clientKeepalive := secondsOf (peer.getString "client-keepalive") } }

/-- The address and the port that `updatePeer` makes of an endpoint -/
def endpointParts (endpoint : String) : String × String :=
  match endpoint.toList.splitOn ':' with
  | [address, port] => (String.ofList address, String.ofList port)
  | _ => (endpoint, "51820")

/-- What `updatePeer` writes -/
def peerPayload (extras : MikrotikPeerExtras) (pp : PhysicalPeer) : GenericJsonObject :=
  .ofList
    [("name", .string extras.name),
      ("comment", .string extras.comment),
      ("preshared-key", .string pp.presharedKey),
      ("public-key", .string pp.keyPair.publicKey),
      ("private-key", .string pp.keyPair.privateKey),
      ("persistent-keepalive", .string (secondsText pp.persistentKeepalive)),
      ("disabled", .string (formatBool extras.disabled)),
      ("responder", .string (formatBool extras.isResponder)),
      ("client-endpoint", .string extras.clientEndpoint),
      ("client-address", .string extras.clientAddress),
      ("client-keepalive", .string (secondsText extras.clientKeepalive)),
      ("client-dns", .string extras.clientDns),
      ("endpoint-address", .string (endpointParts pp.endpoint).1),
      ("endpoint-port", .string (endpointParts pp.endpoint).2),
      ("allowed-address", .string (cidrsToString pp.allowedIPs))]

/-- The addresses that can be read -/
def convertIpAddresses (ipv4 ipv6 : List GenericJsonObject) : List Cidr :=
  (ipv4 ++ ipv6).filterMap fun addr =>
    if addr.getString "address" = "" then none else cidrFromString (addr.getString "address")

def convertWireGuardInterface (wg : GenericJsonObject) (addresses : List Cidr) :
    PhysicalInterface where
  identifier := wg.getString "name"
  keyPair := ⟨wg.getString "private-key", wg.getString "public-key"⟩
  listenPort := wg.getInt "listen-port"
  addresses := addresses
  mtu := wg.getInt "mtu"
  firewallMark := 0
  deviceUp := wg.getBool "running"
  importSource := controllerTypeMikrotik
  deviceType := controllerTypeMikrotik
  backendExtras := some ⟨wg.getString ".id", wg.getString "comment", wg.getBool "disabled"⟩

end WgPortal.WgController.Mikrotik
