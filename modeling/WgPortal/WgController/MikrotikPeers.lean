import WgPortal.WgController.MikrotikDurations
import WgPortal.WgController.MikrotikRouter

/-! Saving, deleting and reading the peers of a Mikrotik router, of which any request may fail,
before or after it took effect. -/

namespace WgPortal.WgController.Mikrotik

open Domain Library

/-- The requests for the objects of `/interface/wireguard/peers` -/
inductive PeerOp where
  | query (propList : List String) (filters : List (String × String))
  | create (payload : GenericJsonObject)
  | update (id : String) (payload : GenericJsonObject)
  | delete (id : String)

abbrev PeerOp.Res : PeerOp → Type
  | query .. => Except String (List GenericJsonObject)
  | create .. => Except String GenericJsonObject
  | update .. => Except String GenericJsonObject
  | delete .. => Except String Unit

abbrev PeerProgram := Program PeerOp PeerOp.Res

def PeerProgram.request (op : PeerOp) : PeerProgram op.Res := Program.perform op

open PeerProgram (request)

section Controller

variable (now : Time) (deviceId : InterfaceIdentifier) (id : PeerIdentifier)

def peerFilters : List (String × String) := [("public-key", id), ("interface", deviceId)]

/-- What `getOrCreatePeer` asks for -/
def peerProperties : List String :=
  [".id", "name", "public-key", "private-key", "preshared-key", "persistent-keepalive",
    "client-address", "client-endpoint", "client-keepalive", "allowed-address", "client-dns",
    "comment", "disabled", "responder"]

/-- What a peer is created with; `updatePeer` writes the rest. -/
def createPayload : GenericJsonObject :=
  .ofList
    [("name", .string ("tmp-wg-" ++ String.ofList (id.toList.take 8))),
      ("interface", .string deviceId),
      ("public-key", .string id),
      ("allowed-address", .string "0.0.0.0/0")]

/-- What stands for the panic of `id[0:8]` -/
def shortIdentifier : Error := .other "slice bounds out of range"

/-- The second half of `getOrCreatePeer` -/
def createPeer : PeerProgram (Except Error PhysicalPeer) := do
  if id.utf8ByteSize < 8 then return .error shortIdentifier
  else
    match ← request (.create (createPayload deviceId id)) with
    | .ok data => return .ok (convertWireGuardPeer now data)
    | .error err =>
      return .error (.other ("failed to create peer " ++ id ++ " for interface " ++ deviceId ++
        ": " ++ err))

/-- A peer that cannot be looked up is created like one that is not there. -/
def getOrCreatePeer : PeerProgram (Except Error PhysicalPeer) := do
  match ← request (.query peerProperties (peerFilters deviceId id)) with
  | .ok (first :: _) => return .ok (convertWireGuardPeer now first)
  | _ => createPeer now deviceId id

def updatePeer (extras : MikrotikPeerExtras) (pp : PhysicalPeer) :
    PeerProgram (Except Error Unit) := do
  match ← request (.update extras.id (peerPayload extras pp)) with
  | .ok _ => return .ok ()
  | .error err =>
    return .error (.other ("failed to update peer " ++ pp.identifier ++ " on interface " ++
      deviceId ++ ": " ++ err))

/-- The extras of a peer of a Mikrotik router; the type assertion panics for any other. -/
def mikrotikExtras (pp : PhysicalPeer) : Except Error MikrotikPeerExtras :=
  match pp.backendExtras with
  | some (.mikrotik extras) => .ok extras
  | _ => .error noExtras

/-- `SavePeer`; the identifier of the object is not changed. -/
def savePeer (updateFunc : PhysicalPeer → Except Error PhysicalPeer) :
    PeerProgram (Except Error Unit) := do
  match ← getOrCreatePeer now deviceId id with
  | .error err => return .error err
  | .ok physicalPeer =>
    match mikrotikExtras physicalPeer with
    | .error err => return .error err
    | .ok extras =>
      match updateFunc physicalPeer with
      | .error err => return .error err
      | .ok physicalPeer =>
        match mikrotikExtras physicalPeer with
        | .error err => return .error err
        | .ok newExtras =>
          let newExtras := { newExtras with id := extras.id }
          updatePeer deviceId newExtras
            { physicalPeer with backendExtras := some (.mikrotik newExtras) }

def deletePeer : PeerProgram (Except Error Unit) := do
  match ← request (.query [".id"] (peerFilters deviceId id)) with
  | .error err =>
    return .error (.other ("unable to find WireGuard peer " ++ id ++ " for interface " ++
      deviceId ++ ": " ++ err))
  | .ok [] => return .ok ()
  | .ok (first :: _) =>
    match ← request (.delete (first.getString ".id")) with
    | .ok _ => return .ok ()
    | .error err =>
      return .error (.other ("failed to delete WireGuard peer " ++ id ++ " for interface " ++
        deviceId ++ ": " ++ err))

/-- What `GetPeers` asks for -/
def reportedProperties : List String :=
  [".id", "name", "allowed-address", "client-address", "client-endpoint", "client-keepalive",
    "comment", "current-endpoint-address", "current-endpoint-port", "last-handshake",
    "persistent-keepalive", "public-key", "private-key", "preshared-key", "mtu", "disabled", "rx",
    "tx", "responder", "client-dns"]

def getPeers : PeerProgram (Except Error (List PhysicalPeer)) := do
  match ← request (.query reportedProperties [("interface", deviceId)]) with
  | .error err =>
    return .error (.other ("failed to query peers for " ++ deviceId ++ ": " ++ err))
  | .ok data => return .ok (data.map (convertWireGuardPeer now))

end Controller

section Router

variable (fw : Firmware) (peers : Table idOf)

/-- The answer of a router without errors of its own -/
def PeerOp.attempt : (op : PeerOp) → op.Res × Table idOf
  | .query propList filters =>
    (.ok ((peers.rows.filter (Router.meets filters)).map (Router.project propList)), peers)
  | .create payload =>
    let o := Router.created fw peers payload fw.defaults
    match peers.insert o with
    | some peers => (.ok o, peers)
    | none => (.error "failure: already have such id", peers)
  | .update id payload =>
    match peers.find id with
    | none => (.error "no such item", peers)
    | some o => (.ok (Router.overlay payload o), Router.updateRow peers id payload)
  | .delete id =>
    match peers.find id with
    | none => (.error "no such item", peers)
    | some _ => (.ok (), peers.filter (idOf · ≠ id))

/-- The error of a request, which may have taken effect. -/
structure Failure where
  err : String
  effective : Bool

def PeerOp.failed (err : String) : (op : PeerOp) → op.Res
  | .query .. => .error err
  | .create .. => .error err
  | .update .. => .error err
  | .delete .. => .error err

def PeerOp.exec (failure : Option Failure) (op : PeerOp) : op.Res × Table idOf :=
  match failure with
  | none => op.attempt fw peers
  | some failure =>
    (op.failed failure.err, if failure.effective then (op.attempt fw peers).2 else peers)

/-- The objects of a peer on an interface -/
def objectsAt (deviceId : InterfaceIdentifier) (id : PeerIdentifier) : List GenericJsonObject :=
  peers.rows.filter (Router.meets (peerFilters deviceId id))

end Router

section Objects

variable {fw : Firmware} {peers : Table idOf} {d d' : InterfaceIdentifier} {k k' : PeerIdentifier}
  {o payload : GenericJsonObject}

theorem meets_peerFilters : Router.meets (peerFilters d k) o = true ↔
    o.getString "public-key" = k ∧ o.getString "interface" = d := by
  simp [Router.meets, peerFilters]

theorem mem_objectsAt : o ∈ objectsAt peers d k ↔
    o ∈ peers.rows ∧ o.getString "public-key" = k ∧ o.getString "interface" = d := by
  rw [objectsAt, List.mem_filter, meets_peerFilters]

/-- An object is that of one peer. -/
theorem same_of_mem_objectsAt (here : o ∈ objectsAt peers d k) (there : o ∈ objectsAt peers d' k') :
    d = d' ∧ k = k' := by
  obtain ⟨-, rfl, rfl⟩ := mem_objectsAt.mp here
  obtain ⟨-, rfl, rfl⟩ := mem_objectsAt.mp there
  exact ⟨rfl, rfl⟩

/-- The payload is for objects of the peer. -/
structure Creates (payload : GenericJsonObject) (d : InterfaceIdentifier) (k : PeerIdentifier) :
    Prop where
  device : payload "interface" = some (.string d)
  key : payload "public-key" = some (.string k)

theorem creates_createPayload (d : InterfaceIdentifier) (k : PeerIdentifier) :
    Creates (createPayload d k) d k := ⟨rfl, rfl⟩

theorem meets_created (creates : Creates payload d k) (defaults : GenericJsonObject) :
    Router.meets (peerFilters d' k') (Router.created fw peers payload defaults) =
      decide (d' = d ∧ k' = k) := by
  have device : (Router.created fw peers payload defaults).getString "interface" = d := by
    rw [GenericJsonObject.getString, Router.created, Router.overlay, if_neg (by decide),
      creates.device]
    rfl
  have key : (Router.created fw peers payload defaults).getString "public-key" = k := by
    rw [GenericJsonObject.getString, Router.created, Router.overlay, if_neg (by decide),
      creates.key]
    rfl
  rw [Bool.eq_iff_iff, meets_peerFilters, device, key, decide_eq_true_iff, and_comm, @eq_comm _ d,
    @eq_comm _ k]

/-- A created object is a further one of its peer. -/
theorem objectsAt_create (creates : Creates payload d k) :
    ∃ o ∈ ((PeerOp.create payload).attempt fw peers).2.rows,
      ((PeerOp.create payload).attempt fw peers).1 = .ok o ∧
      o ∈ objectsAt ((PeerOp.create payload).attempt fw peers).2 d k ∧
      ∀ d' k', objectsAt ((PeerOp.create payload).attempt fw peers).2 d' k' =
        objectsAt peers d' k' ++ if d' = d ∧ k' = k then [o] else [] := by
  obtain ⟨t, inserted, rows⟩ := Router.insert_created fw peers payload fw.defaults
  have listed : Router.created fw peers payload fw.defaults ∈ t.rows := by
    rw [rows]
    exact List.mem_append_right _ (List.mem_singleton_self _)
  have own :
      Router.meets (peerFilters d k) (Router.created fw peers payload fw.defaults) = true := by
    rw [meets_created creates]
    exact decide_eq_true ⟨rfl, rfl⟩
  refine ⟨Router.created fw peers payload fw.defaults, ?_, ?_, ?_, fun d' k' => ?_⟩ <;>
    simp only [PeerOp.attempt, inserted]
  · exact listed
  · exact List.mem_filter.mpr ⟨listed, own⟩
  · rw [objectsAt, rows, List.filter_append]
    congr 1
    by_cases same : d' = d ∧ k' = k
    · rw [if_pos same]
      exact List.filter_cons_of_pos (by rw [meets_created creates, decide_eq_true same])
    · rw [if_neg same]
      exact List.filter_cons_of_neg (by rw [meets_created creates, decide_eq_false same]; decide)

theorem eq_of_idOf_eq {o' : GenericJsonObject} (here : o ∈ peers.rows) (there : o' ∈ peers.rows)
    (same : idOf o' = idOf o) : o' = o :=
  List.inj_on_of_nodup_map peers.nodup there here same

/-- What belongs to another peer is another object. -/
theorem idOf_ne {o' : GenericJsonObject} (here : o ∈ objectsAt peers d k)
    (there : o' ∈ objectsAt peers d' k') (other : ¬ (d' = d ∧ k' = k)) : idOf o' ≠ idOf o := by
  intro same
  rw [eq_of_idOf_eq (mem_objectsAt.mp here).1 (mem_objectsAt.mp there).1 same] at there
  exact other (same_of_mem_objectsAt there here)

/-- The payload is for an object of the peer, which stays one. -/
structure Rewrites (payload : GenericJsonObject) (k : PeerIdentifier) : Prop where
  device : payload "interface" = none
  key : payload "public-key" = some (.string k)

theorem rewrites_peerPayload {extras : MikrotikPeerExtras} {pp : PhysicalPeer}
    (key : pp.keyPair.publicKey = k) : Rewrites (peerPayload extras pp) k :=
  ⟨rfl, congrArg (fun key => some (JsonValue.string key)) key⟩

theorem mem_objectsAt_overlay (rewrites : Rewrites payload k) (here : o ∈ objectsAt peers d k) :
    Router.meets (peerFilters d' k') (Router.overlay payload o) =
      Router.meets (peerFilters d' k') o := by
  obtain ⟨-, named, placed⟩ := mem_objectsAt.mp here
  have device : (Router.overlay payload o).getString "interface" = d := by
    rw [← placed, GenericJsonObject.getString, Router.overlay, if_neg (by decide), rewrites.device]
    rfl
  have key : (Router.overlay payload o).getString "public-key" = k := by
    rw [GenericJsonObject.getString, Router.overlay, if_neg (by decide), rewrites.key]
    rfl
  rw [Bool.eq_iff_iff, meets_peerFilters, meets_peerFilters, device, key, named, placed]

/-- An update changes the one object. -/
theorem objectsAt_update (rewrites : Rewrites payload k) (here : o ∈ objectsAt peers d k) :
    ((PeerOp.update (idOf o) payload).attempt fw peers).1 = .ok (Router.overlay payload o) ∧
      ∀ d' k', objectsAt ((PeerOp.update (idOf o) payload).attempt fw peers).2 d' k' =
        (objectsAt peers d' k').map fun x =>
          if idOf x = idOf o then Router.overlay payload x else x := by
  have found : peers.find (idOf o) = some o := Table.find_of_mem (mem_objectsAt.mp here).1
  simp only [PeerOp.attempt, found, true_and]
  intro d' k'
  rw [objectsAt, objectsAt, Router.updateRow, Table.map, List.filter_map]
  refine congrArg (List.map _) (List.filter_congr fun x mem => ?_)
  by_cases same : idOf x = idOf o
  · rw [Function.comp_apply, if_pos same, eq_of_idOf_eq (mem_objectsAt.mp here).1 mem same,
      mem_objectsAt_overlay rewrites here]
  · rw [Function.comp_apply, if_neg same]

/-- A deletion removes the one object. -/
theorem objectsAt_delete (here : o ∈ objectsAt peers d k) :
    ((PeerOp.delete (idOf o)).attempt fw peers).1 = .ok () ∧
      ∀ d' k', objectsAt ((PeerOp.delete (idOf o)).attempt fw peers).2 d' k' =
        (objectsAt peers d' k').filter (idOf · ≠ idOf o) := by
  have found : peers.find (idOf o) = some o := Table.find_of_mem (mem_objectsAt.mp here).1
  simp only [PeerOp.attempt, found, true_and]
  intro d' k'
  rw [objectsAt, objectsAt, Table.filter, List.filter_filter, List.filter_filter]
  simp only [Bool.and_comm]

end Objects

end WgPortal.WgController.Mikrotik
