import WgPortal.Adapters.Database
import WgPortal.Domain.RoutingTable
import WgPortal.Route.Routes
import WgPortal.Route.Rules

/-! The synchronization of the routes and the rules of all interfaces, with the calls of the
database, of netlink and of `wgctrl` that it makes, of which any may fail. -/

namespace WgPortal.Route.SyncRoutes

open Domain Library
open Library.Net (IPNet)

/-- What the manager works with. The index of a link is that of no other one. -/
structure Node where
  db : Adapters.Db
  links : InterfaceIdentifier → Option Int
  links_inj : ∀ {a b k}, links a = some k → links b = some k → a = b
  routeKernel : Routes.Kernel
  ruleKernel : Kernel

/-- The marks of the WireGuard devices, the routes and the rules -/
structure Network where
  marks : InterfaceIdentifier → ℕ
  routes : Routes.Table
  rules : Host

inductive SyncOp where
  | getAllInterfaces
  | getInterfacePeers (id : InterfaceIdentifier)
  /-- answers with the index of the link -/
  | linkByName (name : InterfaceIdentifier)
  /-- only the mark is configured -/
  | configureDevice (name : InterfaceIdentifier) (fwmark : ℕ)
  | route (op : Routes.RouteOp)
  | rule (op : RuleOp)

abbrev SyncOp.Res : SyncOp → Type
  | getAllInterfaces => Except Error (List Interface)
  | getInterfacePeers _ => Except Error (List Peer)
  | linkByName _ => Except Error Int
  | configureDevice .. => Except Error Unit
  | route op => op.Res
  | rule op => op.Res

abbrev SyncProgram := Program SyncOp SyncOp.Res

namespace SyncProgram

def issue (op : SyncOp) : SyncProgram op.Res := Program.perform op

def ofRoutes {α : Type} (prog : Routes.RouteProgram α) : SyncProgram α :=
  prog.embed fun op => issue (.route op)

def ofRules {α : Type} (prog : RuleProgram α) : SyncProgram α :=
  prog.embed fun op => issue (.rule op)

end SyncProgram

open SyncProgram

/-- An operation that fails has no effect. -/
def SyncOp.exec (node : Node) (fault : Option Error) : (op : SyncOp) → Network → op.Res × Network
  | .getAllInterfaces, net =>
    (match fault with
      | some err => .error err
      | none => .ok node.db.getAllInterfaces, net)
  | .getInterfacePeers id, net =>
    (match fault with
      | some err => .error err
      | none => .ok (node.db.getInterfacePeers id), net)
  | .linkByName name, net =>
    (match fault, node.links name with
      | some err, _ => .error err
      | none, none => .error (.other "Link not found")
      | none, some link => .ok link, net)
  | .configureDevice name fwmark, net =>
    match fault, node.links name with
    | some err, _ => (.error err, net)
    | none, none => (.error errNotExist, net)
    | none, some _ => (.ok (), { net with marks := Function.update net.marks name fwmark })
  | .route op, net =>
    let (answer, routes) := op.exec node.routeKernel fault net.routes
    (answer, { net with routes := routes })
  | .rule op, net =>
    let (answer, rules) := op.exec node.ruleKernel fault net.rules
    (answer, { net with rules := rules })

/-- The operations of a call in a row, of which some fail. -/
def inTurn (node : Node) (faults : ℕ → Option Error) (op : SyncOp) (s : ℕ × Network) :
    op.Res × (ℕ × Network) :=
  let (answer, net) := op.exec node (faults s.1) s.2
  (answer, (s.1 + 1, net))

def SyncProgram.run {α : Type} (node : Node) (faults : ℕ → Option Error) (prog : SyncProgram α)
    (net : Network) : α × Network :=
  let (result, s) := prog.eval (inTurn node faults) (0, net)
  (result, s.2)

/-- The route manager with the number that its own marks start from -/
structure Manager extends Route.Manager where
  routeTableOffset : Int

/-- The conversion to `uint32` -/
def toUint32 (n : Int) : ℕ := (n % 2 ^ 32).toNat

namespace Manager

variable (m : Manager)

def setFwMark (id : InterfaceIdentifier) (fwmark : ℕ) : SyncProgram (Except Error Unit) := do
  match ← issue (.configureDevice id fwmark) with
  | .error err => return .error (.wrap ("failed to update fwmark to: " ++ toString fwmark) err)
  | .ok _ => return .ok ()

/-- The mark that the rules of an interface are for -/
def fwMarkOf (iface : Interface) (link : Int) : ℕ :=
  if iface.firewallMark = 0 then toUint32 (m.routeTableOffset + link) else iface.firewallMark

/-- The table that the routes of an interface go to -/
def tableOf (iface : Interface) (link : Int) : Int :=
  if iface.getRoutingTable = 0 then m.fwMarkOf iface link else iface.getRoutingTable

def getRoutingTableAndFwMark (iface : Interface) (link : Int) :
    SyncProgram (Except Error (Int × ℕ)) := do
  if iface.getRoutingTable = 0 ∧ iface.firewallMark = 0 then return .ok (0, 0)
  else
    let fwmark := m.fwMarkOf iface link
    let table := m.tableOf iface link
    -- the mark is applied to the device only if it is a temporary one
    if iface.firewallMark = 0 then
      match ← setFwMark iface.identifier fwmark with
      | .error err => return .error err
      | .ok _ => return .ok (table, fwmark)
    else return .ok (table, fwmark)

/-- The flags for IPv4 and for IPv6 -/
def containsDefaultRoute (allowedIPs : List Cidr) : Bool × Bool :=
  (allowedIPs.any fun allowedIP => allowedIP.bits = 0 ∧ allowedIP.addr.family = .v4,
    allowedIPs.any fun allowedIP => allowedIP.bits = 0 ∧ ¬ allowedIP.addr.family = .v4)

/-- The record of an interface for the rules of a family -/
def ruleInfo (ifaceId : InterfaceIdentifier) (table : Int) (fwmark : ℕ) (allowedIPs : List Cidr)
    (family : Family) : RouteRuleInfo where
  ifaceId := ifaceId
  fwMark := fwmark
  table := table
  hasDefault :=
    match family with
    | .v4 => (containsDefaultRoute allowedIPs).1
    | .v6 => (containsDefaultRoute allowedIPs).2

/-- The loop of `syncRoutes` -/
def syncInterfaces : List Interface → (Family → List RouteRuleInfo) →
    SyncProgram (Except Error (Family → List RouteRuleInfo))
  | [], rules => return .ok rules
  | iface :: interfaces, rules => do
    if iface.isDisabled then syncInterfaces interfaces rules
    else if !iface.manageRoutingTable then syncInterfaces interfaces rules
    else
      match ← issue (.getInterfacePeers iface.identifier) with
      | .error err => return .error (.wrap ("failed to find peers for " ++ iface.identifier) err)
      | .ok peers =>
        let allowedIPs := iface.getAllowedIPs peers
        match ← issue (.linkByName iface.identifier) with
        | .error err =>
          return .error (.wrap ("failed to find physical link for " ++ iface.identifier) err)
        | .ok link =>
          match ← m.getRoutingTableAndFwMark iface link with
          | .error err =>
            return .error (.wrap ("failed to get table and fwmark for " ++ iface.identifier) err)
          | .ok (table, fwmark) =>
            if table = 0 ∧ fwmark = 0 then syncInterfaces interfaces rules
            else
              match ← ofRoutes (Routes.syncInterfaceRoutes iface.identifier link table allowedIPs)
                with
              | .error err => return .error err
              | .ok _ =>
                syncInterfaces interfaces fun family =>
                  if table = 0 then rules family
                  else rules family ++ [ruleInfo iface.identifier table fwmark allowedIPs family]

/-- The families come in the order of a map. -/
def syncRoutes (families : List Family) : SyncProgram (Except Error Unit) := do
  match ← issue .getAllInterfaces with
  | .error err => return .error (.wrap "failed to find all interfaces" err)
  | .ok interfaces =>
    match ← m.syncInterfaces interfaces fun _ => [] with
    | .error err => return .error err
    | .ok rules => ofRules (m.toManager.syncRouteRules rules families)

end Manager

end WgPortal.Route.SyncRoutes
