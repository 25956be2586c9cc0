import WgPortal.Domain.Basic
import WgPortal.Domain.CidrConversions
import WgPortal.Library.Program

/-! The routing table of the kernel, and how the route manager brings the routes of an interface
in line with the allowed IPs of its peers. -/

namespace WgPortal.Route.Routes

open Domain Library Library.NetIP Library.Net

/-- A destination in a routing table, which has no host bits -/
structure Destination where
  net : Prefix
  masked : net.masked = net
deriving DecidableEq

def Destination.of (p : Prefix) : Destination := ⟨p.masked, p.masked_masked⟩

/-- `netlink.Route`, whose destination is given in one of two forms. -/
structure NetlinkRoute (D : Type) where
  linkIndex : Int
  dst : D
  table : Int
  scope : ℕ
  type : ℕ
  protocol : ℕ
  /-- what the manager neither sets nor reads, as gateways and metrics -/
  others : List (String × String)
deriving DecidableEq

def NetlinkRoute.withDst {D E : Type} (r : NetlinkRoute D) (dst : E) : NetlinkRoute E :=
  ⟨r.linkIndex, dst, r.table, r.scope, r.type, r.protocol, r.others⟩

/-- A route in a request or in a list -/
abbrev RawRoute := NetlinkRoute (Option IPNet)

/-- The routes of all tables, interfaces and families -/
abbrev Table := List (NetlinkRoute Destination)

/-- `unix.RT_SCOPE_LINK` -/
def rtScopeLink : ℕ := 253

/-- `unix.RTN_UNICAST` -/
def rtnUnicast : ℕ := 1

/-- `unix.RTPROT_STATIC` -/
def rtprotStatic : ℕ := 4

/-- Default routes are listed without a destination. -/
def report (r : NetlinkRoute Destination) : RawRoute :=
  r.withDst (if r.dst.net.bits = 0 then none else some (shortNet r.dst.net))

/-- The kernel takes some destinations, whose host bits it drops, and refuses others. A route
takes the place of those to the same destination in its table, and may get further properties. -/
structure Kernel where
  accepts : Prefix → Bool
  replace : NetlinkRoute Destination → Table → Table
  mem_replace : ∀ r rs x, x ∈ replace r rs →
    x ∈ rs ∨ ∃ others, x = { r with others := others }
  replace_adds : ∀ r rs, ∃ others, { r with others := others } ∈ replace r rs
  replace_keeps : ∀ r rs, ∀ x ∈ rs, x ∈ replace r rs ∨ x.dst = r.dst ∧ x.table = r.table

inductive RouteOp where
  | routeReplace (route : RawRoute)
  /-- The routes of a table and an interface that are of one type -/
  | routeListFiltered (family : NetIP.Family) (filter : RawRoute)
  | routeDel (route : RawRoute)

abbrev RouteOp.Res : RouteOp → Type
  | routeReplace _ => Except Error Unit
  | routeListFiltered .. => Except Error (List RawRoute)
  | routeDel _ => Except Error Unit

abbrev RouteProgram := Program RouteOp RouteOp.Res

def issue (op : RouteOp) : RouteProgram op.Res := Program.perform op

/-- The destination that a request is about -/
def target (r : RawRoute) : Option Prefix := r.dst.bind prefixOf

def invalidArgument : Error := .other "invalid argument"

def listed (family : NetIP.Family) (filter : RawRoute) (r : NetlinkRoute Destination) : Bool :=
  r.dst.net.addr.family = family ∧ r.table = filter.table ∧ r.type = filter.type ∧
    r.linkIndex = filter.linkIndex

/-- An operation that fails has no effect. -/
def RouteOp.exec (kernel : Kernel) (fault : Option Error) :
    (op : RouteOp) → Table → op.Res × Table
  | .routeReplace r, rs =>
    match fault, target r with
    | some err, _ => (.error err, rs)
    | none, none => (.error invalidArgument, rs)
    | none, some p =>
      if kernel.accepts p then (.ok (), kernel.replace (r.withDst (Destination.of p)) rs)
      else (.error invalidArgument, rs)
  | .routeListFiltered family filter, rs =>
    (match fault with
      | some err => .error err
      | none => .ok ((rs.filter (listed family filter)).map report), rs)
  | .routeDel r, rs =>
    match fault, target r with
    | some err, _ => (.error err, rs)
    | none, none => (.error invalidArgument, rs)
    | none, some p => (.ok (), rs.erase (r.withDst (Destination.of p)))

/-- The operations of a call in a row, of which some fail. -/
def inTurn (kernel : Kernel) (faults : ℕ → Option Error) (op : RouteOp) (s : ℕ × Table) :
    op.Res × (ℕ × Table) :=
  let (answer, rs) := op.exec kernel (faults s.1) s.2
  (answer, (s.1 + 1, rs))

def RouteProgram.run {α : Type} (kernel : Kernel) (faults : ℕ → Option Error)
    (prog : RouteProgram α) (rs : Table) : α × Table :=
  let (result, s) := prog.eval (inTurn kernel faults) (0, rs)
  (result, s.2)

/-- The text of a prefix -/
def cidrText (c : Cidr) : String := String.ofList (Prefix.text c)

/-- `CidrFromString("0.0.0.0/0")`, or `CidrFromString("::/0")` -/
def defaultCidr (family : NetIP.Family) : Cidr :=
  ⟨⟨family, 0, Nat.two_pow_pos _⟩, 0, Nat.zero_le _⟩

def setInterfaceRoutes (link table : Int) : List Cidr → RouteProgram (Except Error Unit)
  | [] => return .ok ()
  | allowedIP :: allowedIPs => do
    let route : RawRoute :=
      { linkIndex := link
        dst := some (Cidr.ipNet allowedIP)
        table := table
        scope := rtScopeLink
        type := rtnUnicast
        protocol := rtprotStatic
        others := [] }
    match ← issue (.routeReplace route) with
    | .error err =>
      return .error (.wrap ("failed to add/update route " ++ cidrText allowedIP) err)
    | .ok _ => setInterfaceRoutes link table allowedIPs

/-- The loop of `removeDeprecatedRoutes`. -/
def deleteDeprecated (family : NetIP.Family) (allowedIPs : List Cidr) :
    List RawRoute → RouteProgram (Except Error Unit)
  | [] => return .ok ()
  | rawRoute :: rawRoutes => do
    let dst := rawRoute.dst.getD (Cidr.ipNet (defaultCidr family))
    let netlinkAddr := Cidr.fromIpNet dst
    if allowedIPs.any fun allowedIP => netlinkAddr = some allowedIP then
      deleteDeprecated family allowedIPs rawRoutes
    else
      match ← issue (.routeDel (rawRoute.withDst (some dst))) with
      | .error err =>
        return .error (.wrap ("failed to remove deprecated route " ++
          netlinkAddr.elim "" cidrText) err)
      | .ok _ => deleteDeprecated family allowedIPs rawRoutes

def removeDeprecatedRoutes (link : Int) (family : NetIP.Family) (allowedIPs : List Cidr)
    (table : Int) : RouteProgram (Except Error Unit) := do
  let filter : RawRoute :=
    { linkIndex := link
      dst := none
      table := table
      scope := rtScopeLink
      type := rtnUnicast
      protocol := 0
      others := [] }
  match ← issue (.routeListFiltered family filter) with
  | .error err => return .error (.wrap "failed to fetch raw routes" err)
  | .ok rawRoutes => deleteDeprecated family allowedIPs rawRoutes

/-- What `syncRoutes` does to the routes of an interface. -/
def syncInterfaceRoutes (iface : InterfaceIdentifier) (link table : Int) (allowedIPs : List Cidr) :
    RouteProgram (Except Error Unit) := do
  match ← setInterfaceRoutes link table allowedIPs with
  | .error err => return .error (.wrap ("failed to set routes for " ++ iface) err)
  | .ok _ =>
    match ← removeDeprecatedRoutes link .v4 allowedIPs table with
    | .error err =>
      return .error (.wrap ("failed to remove deprecated v4 routes for " ++ iface) err)
    | .ok _ =>
      match ← removeDeprecatedRoutes link .v6 allowedIPs table with
      | .error err =>
        return .error (.wrap ("failed to remove deprecated v6 routes for " ++ iface) err)
      | .ok _ => return .ok ()

end WgPortal.Route.Routes
