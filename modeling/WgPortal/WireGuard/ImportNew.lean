import WgPortal.WireGuard.Import

/-! The import of the interfaces that the controllers report and the database does not know. -/

namespace WgPortal.WireGuard.ImportNew

open Domain Library Adapters WgController

/-- What the controllers report -/
structure Inventory where
  interfaces : InterfaceBackend → List PhysicalInterface
  peers : InterfaceBackend → InterfaceIdentifier → Except Error (List PhysicalPeer)

inductive ImportOp where
  | manager (op : ManagerOp)
  /-- `GetInterfaces` of a controller -/
  | getInterfaces (backend : InterfaceBackend)
  /-- `GetPeers` of a controller -/
  | getPeers (backend : InterfaceBackend) (id : InterfaceIdentifier)

abbrev ImportOp.Res : ImportOp → Type
  | manager op => op.Res
  | getInterfaces _ => Except Error (List PhysicalInterface)
  | getPeers .. => Except Error (List PhysicalPeer)

abbrev ImportProgram := Program ImportOp ImportOp.Res

namespace ImportProgram

def issue (op : ImportOp) : ImportProgram op.Res := Program.perform op

def lift {α : Type} (prog : ManagerProgram α) : ImportProgram α :=
  prog.embed fun op => issue (.manager op)

end ImportProgram

open ImportProgram

variable {w : Wgtypes}

def ImportOp.exec (inv : Inventory) (client : Client w) (c : Circumstance) :
    (op : ImportOp) → World w → op.Res × World w
  | .manager op, world => op.exec client c world
  | .getInterfaces backend, world =>
    (match c.fault with
      | some err => .error err
      | none => .ok (inv.interfaces backend), world)
  | .getPeers backend id, world =>
    (match c.fault with
      | some err => .error err
      | none => inv.peers backend id, world)

/-- The operations of one call in a row, each under the circumstances of its turn -/
def inTurn (inv : Inventory) (client : Client w) (circumstances : ℕ → Circumstance)
    (op : ImportOp) (s : ℕ × World w) : op.Res × (ℕ × World w) :=
  let (answer, world) := op.exec inv client (circumstances s.1) s.2
  (answer, (s.1 + 1, world))

def ImportProgram.run {α : Type} (inv : Inventory) (client : Client w)
    (circumstances : ℕ → Circumstance) (prog : ImportProgram α) (world : World w) : α × World w :=
  let (result, s) := prog.eval (inTurn inv client circumstances) (0, world)
  (result, s.2)

/-- The loop over the interfaces of a controller -/
def importChosen (ui : ContextUserInfo) (backend : InterfaceBackend)
    (excludedInterfaces filter : List InterfaceIdentifier) :
    List PhysicalInterface → ℕ → ImportProgram (Except Error ℕ)
  | [], imported => return .ok imported
  | physicalInterface :: physicalInterfaces, imported => do
    let id := physicalInterface.identifier
    if id ∈ excludedInterfaces then
      importChosen ui backend excludedInterfaces filter physicalInterfaces imported
    else if filter ≠ [] ∧ id ∉ filter then
      importChosen ui backend excludedInterfaces filter physicalInterfaces imported
    else
      match ← issue (.getPeers backend id) with
      | .error err => return .error err
      | .ok physicalPeers =>
        match ← lift (importInterface ui backend physicalInterface physicalPeers) with
        | .error err => return .error (.wrap ("import of " ++ id ++ " failed") err)
        | .ok _ =>
          importChosen ui backend excludedInterfaces filter physicalInterfaces (imported + 1)

/-- Without a filter, the stored interfaces are excluded. -/
def excludedInterfaces (filter : List InterfaceIdentifier) :
    ImportProgram (Except Error (List InterfaceIdentifier)) := do
  if filter = [] then
    match ← issue (.manager (.repo .getAllInterfaces)) with
    | .error err => return .error err
    | .ok existingInterfaces => return .ok (existingInterfaces.map Interface.identifier)
  else return .ok []

/-- The loop over the controllers -/
def importBackends (ui : ContextUserInfo) (filter : List InterfaceIdentifier) :
    List InterfaceBackend → ℕ → ImportProgram (Except Error ℕ)
  | [], imported => return .ok imported
  | backend :: backends, imported => do
    match ← issue (.getInterfaces backend) with
    | .error err => return .error err
    | .ok physicalInterfaces =>
      match ← excludedInterfaces filter with
      | .error err => return .error err
      | .ok excluded =>
        match ← importChosen ui backend excluded filter physicalInterfaces imported with
        | .error err => return .error err
        | .ok imported => importBackends ui filter backends imported

/-- The controllers come in the order of a map. -/
def importNewInterfaces (ui : ContextUserInfo) (controllers : List InterfaceBackend)
    (filter : List InterfaceIdentifier) : ImportProgram (Except Error ℕ) := do
  match validateAdminAccessRights ui with
  | .error err => return .error err
  | .ok _ => importBackends ui filter controllers 0

end WgPortal.WireGuard.ImportNew
