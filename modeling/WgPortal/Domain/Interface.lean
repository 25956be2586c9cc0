import WgPortal.Domain.PhysicalPeer
import WgPortal.Library.NetIPText

/-! Interfaces as a backend knows them, and the conversions between both kinds. -/

namespace WgPortal.Domain

open Library.NetIP

structure MikrotikInterfaceExtras where
  id : String
  comment : String
  disabled : Bool
deriving DecidableEq

structure PhysicalInterface where
  identifier : InterfaceIdentifier
  keyPair : KeyPair
  listenPort : Int
  addresses : List Cidr
  mtu : Int
  firewallMark : ℕ
  deviceUp : Bool
  importSource : String
  deviceType : String
  backendExtras : Option MikrotikInterfaceExtras
deriving DecidableEq

/-- The extras of an interface are those of its import source. -/
def convertPhysicalInterface (now : Time) (pi : PhysicalInterface) : Interface :=
  let networks := pi.addresses.map Cidr.networkAddr
  let iface :=
    { Interface.zero with
      identifier := pi.identifier
      keyPair := pi.keyPair
      listenPort := pi.listenPort
      addresses := pi.addresses
      mtu := pi.mtu
      firewallMark := pi.firewallMark
      displayName := pi.identifier
      type := .any
      driverType := pi.deviceType
      peerDefNetworkStr := cidrsToString networks
      peerDefAllowedIPsStr := cidrsToString networks
      peerDefMtu := pi.mtu }
  match pi.backendExtras with
  | none => iface
  | some extras =>
    if pi.importSource = controllerTypeMikrotik then
      { iface with
        displayName := extras.comment
        disabled := if extras.disabled then some now else none }
    else iface

def Interface.isDisabled (i : Interface) : Bool := i.disabled.isSome

def mergeToPhysicalInterface (pi : PhysicalInterface) (i : Interface) : PhysicalInterface :=
  { pi with
    identifier := i.identifier
    keyPair := i.keyPair
    listenPort := i.listenPort
    mtu := i.mtu
    firewallMark := i.firewallMark
    deviceUp := !i.isDisabled
    addresses := i.addresses
    backendExtras :=
      if pi.importSource = controllerTypeMikrotik then some ⟨"", i.displayName, i.isDisabled⟩
      else pi.backendExtras }

theorem toList_negSucc (n : ℕ) :
    (toString (Int.negSucc n)).toList = '-' :: (n + 1).repr.toList := by
  have sign : toString (Int.negSucc n) = "-" ++ (n + 1).repr := rfl
  rw [sign, String.toList_append]
  rfl

theorem digit_of_mem_toString {n : Int} {c : Char} (mem : c ∈ (toString n).toList) :
    c.isDigit ∨ c = '-' := by
  cases n with
  | ofNat n =>
    exact .inl (Nat.isDigit_of_mem_toDigits (by decide) (by decide) (Nat.toList_repr ▸ mem))
  | negSucc n =>
    rw [toList_negSucc, Nat.toList_repr, List.mem_cons] at mem
    exact mem.symm.imp_left (Nat.isDigit_of_mem_toDigits (by decide) (by decide))

namespace Interface

def addressStr (i : Interface) : String := cidrsToString i.addresses

/-- The CIDRs of the routes to the peers of the interface. -/
def getAllowedIPs (_ : Interface) (peers : List Peer) : List Cidr :=
  peers.flatMap fun peer =>
    peer.interface.addresses.map Cidr.hostAddr ++
      if peer.extraAllowedIPsStr ≠ "" then cidrsOrNil peer.extraAllowedIPsStr else []

/-- `strings.ReplaceAll(s, "0x", "")` -/
def dropHexMarks : List Char → List Char
  | '0' :: 'x' :: text => dropHexMarks text
  | c :: text => c :: dropHexMarks text
  | [] => []

/-- A sign may precede the digits. -/
def signedDecimal (text : List Char) : Option Int :=
  let number (digits : List Char) : Option Int :=
    if digits = [] then none else (ofDigits 10 digitVal digits).map Int.ofNat
  match text with
  | '-' :: digits => (number digits).map Neg.neg
  | '+' :: digits => number digits
  | digits => number digits

def maxInt32 : Int := 2147483647

/-- -1 if the routing table is off or an error occurred. -/
def getRoutingTable (i : Interface) : Int :=
  match i.routingTable.toLower.toList with
  | [] => 0
  | ['o', 'f', 'f'] => -1
  | '0' :: 'x' :: rest =>
    let number := dropHexMarks ('0' :: 'x' :: rest)
    match if number = [] then none else ofDigits 16 hexVal number with
    | none => -1
    | some table => if maxInt32 < table then -1 else table
  | text =>
    match signedDecimal text with
    | none => -1
    -- below the range of `int`, Atoi fails
    | some table => if maxInt32 < table ∨ table < -2 ^ 63 then -1 else table

def copyCalculatedAttributes (i src : Interface) : Interface := { i with base := src.base }

/-- An error of `net.SplitHostPort` -/
def addrError (addr why : String) : Error := .other ("address " ++ addr ++ ": " ++ why)

/-- The parts of a text before and behind the first occurrence of `c`. -/
def cutFirst (c : Char) : List Char → Option (List Char × List Char)
  | [] => none
  | d :: text =>
    if d = c then some ([], text)
    else (cutFirst c text).map fun parts => (d :: parts.1, parts.2)

def cutLast (c : Char) (text : List Char) : Option (List Char × List Char) :=
  (cutFirst c text.reverse).map fun parts => (parts.2.reverse, parts.1.reverse)

theorem cutFirst_eq_none {c : Char} {text : List Char} : cutFirst c text = none ↔ c ∉ text := by
  induction text with
  | nil => simp [cutFirst]
  | cons d text ih =>
    by_cases same : d = c
    · simp [cutFirst, same]
    · simp [cutFirst, same, ih, Ne.symm same]

theorem cutFirst_eq_some {c : Char} {text front back : List Char} :
    cutFirst c text = some (front, back) ↔ text = front ++ c :: back ∧ c ∉ front := by
  induction text generalizing front with
  | nil => simp [cutFirst]
  | cons d text ih =>
    by_cases same : d = c
    · cases front with
      | nil => simp [cutFirst, same]
      | cons e front =>
        rw [cutFirst, if_pos same]
        refine iff_of_false (fun found => by cases found) fun split => split.2 ?_
        obtain ⟨rfl, _⟩ := List.cons.inj split.1
        exact same ▸ List.mem_cons_self
    · cases front with
      | nil =>
        rw [cutFirst, if_neg same]
        refine iff_of_false (fun found => ?_) fun split => same (List.cons.inj split.1).1
        obtain ⟨parts, _, start⟩ := Option.map_eq_some_iff.mp found
        cases start
      | cons e front =>
        have tail : cutFirst c text = some (front, back) ∧ d = e ↔
            cutFirst c (d :: text) = some (e :: front, back) := by
          rw [cutFirst, if_neg same]
          cases cutFirst c text with
          | none => simp
          | some parts => simp [Prod.ext_iff, and_comm, and_assoc]
        rw [← tail, ih]
        constructor
        · rintro ⟨⟨rfl, fresh⟩, rfl⟩
          exact ⟨rfl, fun listed => (List.mem_cons.mp listed).elim (Ne.symm same) fresh⟩
        · rintro ⟨split, fresh⟩
          obtain ⟨rfl, rfl⟩ := List.cons.inj split
          exact ⟨⟨rfl, fun listed => fresh (List.mem_cons_of_mem _ listed)⟩, rfl⟩

theorem cutLast_eq_none {c : Char} {text : List Char} : cutLast c text = none ↔ c ∉ text := by
  rw [cutLast, Option.map_eq_none_iff, cutFirst_eq_none, List.mem_reverse]

theorem cutLast_eq_some {c : Char} {text front back : List Char} :
    cutLast c text = some (front, back) ↔ text = front ++ c :: back ∧ c ∉ back := by
  have reversed : text = front ++ c :: back ↔
      text.reverse = back.reverse ++ c :: front.reverse := by
    rw [← List.reverse_inj, List.reverse_append, List.reverse_cons, List.append_assoc,
      List.singleton_append]
  rw [reversed, ← List.mem_reverse, ← cutFirst_eq_some, cutLast, Option.map_eq_some_iff]
  constructor
  · rintro ⟨⟨first, second⟩, found, same⟩
    obtain ⟨rfl, rfl⟩ := Prod.mk.inj same
    rw [List.reverse_reverse, List.reverse_reverse, found]
  · exact fun found => ⟨_, found, by rw [List.reverse_reverse, List.reverse_reverse]⟩

/-- `net.SplitHostPort` -/
def splitHostPort (hostport : String) : Except Error (String × String) :=
  let text := hostport.toList
  match cutLast ':' text with
  | none => .error (addrError hostport "missing port in address")
  | some (front, port) =>
    match text with
    | '[' :: rest =>
      match cutFirst ']' rest with
      | none => .error (addrError hostport "missing ']' in address")
      | some (_, []) => .error (addrError hostport "missing port in address")
      | some (host, ':' :: tail) =>
        if tail ≠ port then .error (addrError hostport "too many colons in address")
        else if '[' ∈ rest then .error (addrError hostport "unexpected '[' in address")
        else if ']' ∈ tail then .error (addrError hostport "unexpected ']' in address")
        else .ok (String.ofList host, String.ofList port)
      | some (_, _ :: _) => .error (addrError hostport "missing port in address")
    | _ =>
      if ':' ∈ front then .error (addrError hostport "too many colons in address")
      else if '[' ∈ text then .error (addrError hostport "unexpected '[' in address")
      else if ']' ∈ text then .error (addrError hostport "unexpected ']' in address")
      else .ok (String.ofList front, String.ofList port)

/-- `net.JoinHostPort` -/
def joinHostPort (host port : String) : String :=
  if ':' ∈ host.toList then "[" ++ host ++ "]:" ++ port else host ++ ":" ++ port

/-- The interface with a complete default endpoint for its peers. -/
def validate (i : Interface) : Except Error Interface :=
  if i.peerDefEndpoint = "" then .ok i
  else
    match splitHostPort i.peerDefEndpoint with
    | .ok (host, port) => .ok { i with peerDefEndpoint := joinHostPort host port }
    | .error err =>
      if contains err.text "missing port in address" then
        .ok { i with peerDefEndpoint := joinHostPort i.peerDefEndpoint (toString i.listenPort) }
      else .error (.wrap "invalid default endpoint" err)

/-- What `validate` makes of the default endpoint -/
def completeEndpoint (endpoint : String) (listenPort : Int) : Except Error String :=
  if endpoint = "" then .ok endpoint
  else
    match splitHostPort endpoint with
    | .ok (host, port) => .ok (joinHostPort host port)
    | .error err =>
      if contains err.text "missing port in address" then
        .ok (joinHostPort endpoint (toString listenPort))
      else .error (.wrap "invalid default endpoint" err)

theorem validate_eq_map (i : Interface) :
    i.validate = (completeEndpoint i.peerDefEndpoint i.listenPort).map fun endpoint =>
      { i with peerDefEndpoint := endpoint } := by
  unfold validate completeEndpoint
  split
  · rfl
  · split
    · rfl
    · split <;> rfl

/-- Only the default endpoint may be completed. -/
theorem validate_eq {i j : Interface} (valid : i.validate = .ok j) :
    ∃ endpoint, j = { i with peerDefEndpoint := endpoint } := by
  rw [validate_eq_map] at valid
  cases completed : completeEndpoint i.peerDefEndpoint i.listenPort with
  | ok endpoint =>
    rw [completed] at valid
    exact ⟨endpoint, (Except.ok.inj valid).symm⟩
  | error err =>
    rw [completed] at valid
    cases valid

/-- An interface is left as it is exactly if its default endpoint is. -/
theorem validate_eq_self_iff (i : Interface) :
    i.validate = .ok i ↔
      completeEndpoint i.peerDefEndpoint i.listenPort = .ok i.peerDefEndpoint := by
  rw [validate_eq_map]
  cases completeEndpoint i.peerDefEndpoint i.listenPort with
  | ok endpoint =>
    refine ⟨fun same => ?_, fun same => ?_⟩
    · exact congrArg Except.ok (congrArg peerDefEndpoint (Except.ok.inj same))
    · obtain rfl := Except.ok.inj same
      rfl
  | error err => exact iff_of_false (fun same => by cases same) fun same => by cases same

end Interface

end WgPortal.Domain
