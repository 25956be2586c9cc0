import WgPortal.WgController.MikrotikInterface

/-! A Mikrotik router as the API shows it, and what it answers to the requests. -/

namespace WgPortal.WgController.Mikrotik

open Domain Library
open Library.NetIP (Family)

/-- The identifier of an object of the router -/
def idOf (o : GenericJsonObject) : String := o.getString ".id"

structure Router where
  wireguard : Table idOf
  addresses : Family → Table idOf

/-- What a router adds to an object that is created -/
structure Firmware where
  newId : List String → String
  fresh : ∀ ids, newId ids ∉ ids
  defaults : GenericJsonObject

/-- Whether a request fails, and the counters of an interface -/
structure Circumstance where
  fault : Option String
  stats : GenericJsonObject

namespace Router

variable (fw : Firmware) (r : Router)

def rows : Path → List GenericJsonObject
  | .wireguard => r.wireguard.rows
  | .interface => []
  | .address family => (r.addresses family).rows

/-- Each filter is met. -/
def meets (filters : List (String × String)) (o : GenericJsonObject) : Bool :=
  filters.all fun entry => o.getString entry.1 = entry.2

/-- The properties that are asked for -/
def project (propList : List String) (o : GenericJsonObject) : GenericJsonObject :=
  fun key => if key ∈ propList then o key else none

/-- The properties of the payload, and the others as they are -/
def overlay (payload o : GenericJsonObject) : GenericJsonObject :=
  fun key => if key = ".id" then o ".id" else (payload key).or (o key)

theorem idOf_overlay (payload o : GenericJsonObject) : idOf (overlay payload o) = idOf o := rfl

/-- A new object of the table -/
def created (t : Table idOf) (payload defaults : GenericJsonObject) : GenericJsonObject :=
  overlay payload fun key =>
    if key = ".id" then some (.string (fw.newId (t.rows.map idOf))) else defaults key

theorem insert_created (t : Table idOf) (payload defaults : GenericJsonObject) :
    ∃ t', t.insert (created fw t payload defaults) = some t' ∧
      t'.rows = t.rows ++ [created fw t payload defaults] := by
  have fresh : ∀ o ∈ t.rows, idOf o ≠ idOf (created fw t payload defaults) := by
    intro o mem same
    have new : idOf (created fw t payload defaults) = fw.newId (t.rows.map idOf) := rfl
    exact fw.fresh (t.rows.map idOf) (new ▸ same ▸ List.mem_map_of_mem mem)
  exact ⟨_, dif_pos fresh, rfl⟩

/-- Addresses are neither dynamic nor disabled unless it is said. -/
def addressDefaults : GenericJsonObject :=
  .ofList [("dynamic", .string "false"), ("disabled", .string "false")]

def create (payload : GenericJsonObject) : Path → Except String (GenericJsonObject × Router)
  | .interface => .error "no such command"
  | .wireguard =>
    if (r.wireguard.rows.map (·.getString "name")).contains (payload.getString "name") then
      .error "failure: already have interface with such name"
    else
      let o := created fw r.wireguard payload fw.defaults
      match r.wireguard.insert o with
      | some t => .ok (o, { r with wireguard := t })
      | none => .error "failure: already have such id"
  | .address family =>
    let o := created fw (r.addresses family) payload addressDefaults
    match (r.addresses family).insert o with
    | some t => .ok (o, { r with addresses := Function.update r.addresses family t })
    | none => .error "failure: already have such id"

def updateRow (t : Table idOf) (id : String) (payload : GenericJsonObject) : Table idOf :=
  t.map (fun o => if idOf o = id then overlay payload o else o) fun o => by
    split
    · exact idOf_overlay payload o
    · rfl

def update (id : String) (payload : GenericJsonObject) :
    Path → Except String (GenericJsonObject × Router)
  | .interface => .error "no such command"
  | .wireguard =>
    match r.wireguard.find id with
    | none => .error "no such item"
    | some o => .ok (overlay payload o, { r with wireguard := updateRow r.wireguard id payload })
  | .address family =>
    match (r.addresses family).find id with
    | none => .error "no such item"
    | some o =>
      let t := updateRow (r.addresses family) id payload
      .ok (overlay payload o, { r with addresses := Function.update r.addresses family t })

def delete (id : String) : Path → Except String Router
  | .interface => .error "no such command"
  | .wireguard =>
    match r.wireguard.find id with
    | none => .error "no such item"
    | some _ => .ok { r with wireguard := r.wireguard.filter (idOf · ≠ id) }
  | .address family =>
    match (r.addresses family).find id with
    | none => .error "no such item"
    | some _ =>
      let t := (r.addresses family).filter (idOf · ≠ id)
      .ok { r with addresses := Function.update r.addresses family t }

end Router

/-- A router, and what the update function was called with -/
structure World where
  router : Router
  updates : List PhysicalInterface

/-- The object and the router after the request, or the router as it was -/
def World.answer {α : Type} (world : World) (result : Except String (α × Router)) :
    Except String α × World :=
  match result with
  | .ok (a, router) => (.ok a, { world with router := router })
  | .error err => (.error err, world)

/-- A request that fails has no effect. The update function merges the interface. -/
def ApiOp.exec (fw : Firmware) (i : Interface) (c : Circumstance) :
    (op : ApiOp) → World → op.Res × World
  | .query path propList filters, world =>
    match c.fault with
    | some err => (.error err, world)
    | none =>
      let found := (world.router.rows path).filter (Router.meets filters)
      (.ok (found.map (Router.project propList)), world)
  | .get _ _ propList, world =>
    match c.fault with
    | some err => (.error err, world)
    | none => (.ok (Router.project propList c.stats), world)
  | .create path payload, world =>
    match c.fault with
    | some err => (.error err, world)
    | none => world.answer (world.router.create fw payload path)
  | .update path id payload, world =>
    match c.fault with
    | some err => (.error err, world)
    | none => world.answer (world.router.update id payload path)
  | .delete path id, world =>
    match c.fault with
    | some err => (.error err, world)
    | none => world.answer ((world.router.delete id path).map fun router => ((), router))
  | .updateFunc pi, world =>
    (.ok (mergeToPhysicalInterface pi i), { world with updates := world.updates ++ [pi] })

/-- The requests of one call, each under the circumstances of its turn -/
def ApiOp.inTurn (fw : Firmware) (i : Interface) (circumstances : ℕ → Circumstance) (op : ApiOp)
    (s : ℕ × World) : op.Res × (ℕ × World) :=
  let (answer, world) := op.exec fw i (circumstances s.1) s.2
  match op with
  | .updateFunc _ => (answer, (s.1, world))
  | _ => (answer, (s.1 + 1, world))

end WgPortal.WgController.Mikrotik
