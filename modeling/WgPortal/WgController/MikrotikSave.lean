import WgPortal.WgController.MikrotikRequests

/-! What a Mikrotik router has after an interface was saved, when any of the requests may fail. -/

namespace WgPortal.WgController.Mikrotik

open Domain Library
open Library.NetIP (Family)
open ApiProgram (issue)

/-- The interface is on the router with its settings. -/
def HasSettings (r : Router) (i : Interface) : Prop :=
  ∃ o ∈ r.wireguard.rows,
    o.getString "name" = i.identifier ∧ o.getString "comment" = i.displayName ∧
      o.getString "mtu" = toString i.mtu ∧ o.getString "listen-port" = toString i.listenPort ∧
      o.getString "private-key" = i.keyPair.privateKey ∧
      o.getString "disabled" = formatBool i.isDisabled

/-- It also has its addresses and no others. -/
structure Saved (r : Router) (i : Interface) : Prop where
  settings : HasSettings r i
  addresses : ∀ reading, reading ∈ r.readings i.identifier ↔ ∃ c ∈ i.addresses, reading = some c

/-- An interface with the name is on the router. -/
def Named (r : Router) (id : InterfaceIdentifier) : Prop :=
  ∃ o ∈ r.wireguard.rows, o.getString "name" = id

instance (r : Router) (id : InterfaceIdentifier) : Decidable (Named r id) :=
  inferInstanceAs (Decidable (∃ o ∈ r.wireguard.rows, _))

section Run

variable (fw : Firmware) (i : Interface) (circumstances : ℕ → Circumstance) (r : Router)

/-- The result of saving the interface, and what it leaves -/
def save : Except Error Unit × World :=
  let run := (saveInterface i.identifier).eval (ApiOp.inTurn fw i circumstances) (0, ⟨r, []⟩)
  (run.1, run.2.2)

/-- The interface cannot be looked up, or it cannot be created. -/
def Unavailable : Prop :=
  (circumstances 0).fault ≠ none ∨ ¬ Named r i.identifier ∧ (circumstances 1).fault ≠ none

/-- Without an error, everything is saved. Without the interface, nothing else is changed. -/
structure Correct : Prop where
  saved : (save fw i circumstances r).1 = .ok () → Saved (save fw i circumstances r).2.router i
  failed : Unavailable i circumstances r → ∃ err, (save fw i circumstances r).1 = .error err
  quiet : Unavailable i circumstances r → (save fw i circumstances r).2.updates = []
  others : Unavailable i circumstances r →
    (save fw i circumstances r).2.router.addresses = r.addresses ∧
      ∀ o, o.getString "name" ≠ i.identifier →
        (o ∈ (save fw i circumstances r).2.router.wireguard.rows ↔ o ∈ r.wireguard.rows)

/-- The addresses as they are read -/
def currentAddresses : List Cidr :=
  convertIpAddresses (r.reported i.identifier .v4) (r.reported i.identifier .v6)

def newAddresses : List Cidr := i.addresses.filter fun addr => addr ∉ currentAddresses i r

/-- The objects to delete -/
def victims : List (Family × String) :=
  ((currentAddresses i r).filter fun addr => addr ∉ i.addresses).filterMap
    (victim (r.reported i.identifier))

/-- The number of requests of a call that is not ended by an error -/
def requests : ℕ :=
  (if Named r i.identifier then 1 else 2) + (6 + (victims i r).length + (newAddresses i r).length)

/-- The error of the creation is noticed, since the empty interface cannot be loaded. -/
def Noticed : Prop :=
  ¬ (¬ Named r i.identifier ∧ (circumstances 0).fault = none ∧ (circumstances 1).fault ≠ none ∧
    ∀ n ∈ [2, 3, 4], (circumstances n).fault = none)

/-- A request fails, or an object is to be deleted twice. -/
def Doomed : Prop :=
  ¬ (victims i r).Nodup ∨ ∃ n < requests i r, (circumstances n).fault ≠ none

/-- Each address can be read, and is wanted or is written as it would be printed. -/
def Canonical : Prop :=
  ∀ family, ∀ o ∈ r.reported i.identifier family, ∃ c, addressOf o = some c ∧
    (c ∈ i.addresses ∨ o.getString "address" = cidrText c ∧ c.addr.family = family)

end Run

/-- A value that two elements have is listed twice. -/
theorem eq_of_nodup_filterMap {α β : Type} {f : α → Option β} {list : List α}
    (nodup : (list.filterMap f).Nodup) {a b : α} (ha : a ∈ list) (hb : b ∈ list) {v : β}
    (fa : f a = some v) (fb : f b = some v) : a = b := by
  induction list with
  | nil => cases ha
  | cons c list ih =>
    have later : ∀ {d}, d ∈ list → f d = some v → v ∈ list.filterMap f :=
      fun mem fd => List.mem_filterMap.mpr ⟨_, mem, fd⟩
    rcases List.mem_cons.mp ha with rfl | inTail
    · rcases List.mem_cons.mp hb with rfl | inTail
      · rfl
      · rw [List.filterMap_cons_some fa] at nodup
        exact absurd (later inTail fb) (List.nodup_cons.mp nodup).1
    · rcases List.mem_cons.mp hb with rfl | inTail'
      · rw [List.filterMap_cons_some fb] at nodup
        exact absurd (later inTail fa) (List.nodup_cons.mp nodup).1
      · refine ih ?_ inTail inTail'
        cases fc : f c with
        | none => rwa [List.filterMap_cons_none fc] at nodup
        | some v' =>
          rw [List.filterMap_cons_some fc] at nodup
          exact (List.nodup_cons.mp nodup).2

section Addresses

variable {r : Router} {i : Interface}

/-- Empty texts are no addresses anyway. -/
theorem currentAddresses_eq : currentAddresses i r =
    (r.reported i.identifier .v4 ++ r.reported i.identifier .v6).filterMap addressOf := by
  refine List.filterMap_congr fun o _ => ?_
  split
  · rename_i empty
    rw [addressOf, empty]
    decide
  · rfl

theorem mem_currentAddresses {c : Cidr} : c ∈ currentAddresses i r ↔
    ∃ family, ∃ o ∈ r.reported i.identifier family, addressOf o = some c := by
  rw [currentAddresses_eq, ← mem_readings, Router.readings, List.mem_map, List.mem_filterMap]

theorem victim_eq_some {c : Cidr} {v : Family × String}
    (chosen : victim (r.reported i.identifier) c = some v) :
    ∃ a ∈ r.reported i.identifier c.addr.family,
      a.getString "address" = cidrText c ∧ v = (c.addr.family, idOf a) := by
  obtain ⟨a, found, rfl⟩ := Option.map_eq_some_iff.mp chosen
  exact ⟨a, List.mem_of_find?_eq_some found, by simpa using List.find?_some found, rfl⟩

theorem mem_victims {v : Family × String} : v ∈ victims i r ↔
    ∃ c ∈ currentAddresses i r, c ∉ i.addresses ∧ victim (r.reported i.identifier) c = some v := by
  simp [victims, List.mem_filterMap, and_assoc]

/-- The objects are told apart by their identifiers. -/
theorem eq_of_idOf {family : Family} {a o : GenericJsonObject}
    (ha : a ∈ r.reported i.identifier family) (ho : o ∈ r.reported i.identifier family)
    (same : idOf a = idOf o) : a = o := by
  obtain ⟨row, listed, rfl⟩ := List.mem_map.mp ha
  obtain ⟨row', listed', rfl⟩ := List.mem_map.mp ho
  have same : idOf row = idOf row' := same
  rw [List.inj_on_of_nodup_map (r.addresses family).nodup (List.mem_filter.mp listed).1
    (List.mem_filter.mp listed').1 same]

theorem addressOf_text {o : GenericJsonObject} {c : Cidr}
    (text : o.getString "address" = cidrText c) : addressOf o = some c := by
  rw [addressOf, text]
  exact cidrFromString_text c

theorem known_of_mem_victims {w : World} {v : Family × String} (mem : v ∈ victims i w.router) :
    Known w v := by
  obtain ⟨c, -, -, chosen⟩ := mem_victims.mp mem
  obtain ⟨a, reported, -, rfl⟩ := victim_eq_some chosen
  obtain ⟨row, listed, rfl⟩ := List.mem_map.mp reported
  exact ⟨row, Table.find_of_mem (List.mem_filter.mp listed).1⟩

/-- What is deleted is written as the address that is not wanted. -/
theorem text_of_mem_victims {family : Family} {o : GenericJsonObject}
    (reported : o ∈ r.reported i.identifier family) (mem : (family, idOf o) ∈ victims i r) :
    ∃ c ∉ i.addresses, o.getString "address" = cidrText c ∧ c.addr.family = family := by
  obtain ⟨c, -, unwanted, chosen⟩ := mem_victims.mp mem
  obtain ⟨a, reported', text, same⟩ := victim_eq_some chosen
  obtain ⟨rfl, id⟩ := Prod.mk.inj same
  obtain rfl := eq_of_idOf reported reported' id
  exact ⟨c, unwanted, text, rfl⟩

/-- The objects to delete, as they are found for each reported object -/
theorem victims_eq : victims i r =
    (r.reported i.identifier .v4 ++ r.reported i.identifier .v6).filterMap fun o =>
      ((addressOf o).filter (· ∉ i.addresses)).bind (victim (r.reported i.identifier)) := by
  rw [victims, currentAddresses_eq, List.filter_filterMap, List.filterMap_filterMap]

/-- What is not wanted and written as it would be printed is deleted, if nothing is deleted
twice. -/
theorem mem_victims_of_text (nodup : (victims i r).Nodup) {o : GenericJsonObject} {c : Cidr}
    (reported : o ∈ r.reported i.identifier c.addr.family)
    (text : o.getString "address" = cidrText c) (unwanted : c ∉ i.addresses) :
    (c.addr.family, idOf o) ∈ victims i r := by
  obtain ⟨a, found⟩ : ∃ a, (r.reported i.identifier c.addr.family).find?
      (fun a => a.getString "address" = cidrText c) = some a := by
    rw [← Option.isSome_iff_exists, List.find?_isSome]
    exact ⟨o, reported, decide_eq_true text⟩
  have chosen : victim (r.reported i.identifier) c = some (c.addr.family, idOf a) := by
    rw [victim, found]
    rfl
  have first : a ∈ r.reported i.identifier c.addr.family := List.mem_of_find?_eq_some found
  have text' : a.getString "address" = cidrText c := by simpa using List.find?_some found
  have listed : ∀ {b}, b ∈ r.reported i.identifier c.addr.family →
      b ∈ r.reported i.identifier .v4 ++ r.reported i.identifier .v6 := by
    intro b mem
    cases family : c.addr.family with
    | v4 => exact List.mem_append_left _ (family ▸ mem)
    | v6 => exact List.mem_append_right _ (family ▸ mem)
  have found' : ∀ {b : GenericJsonObject}, b.getString "address" = cidrText c →
      ((addressOf b).filter (· ∉ i.addresses)).bind (victim (r.reported i.identifier)) =
        some (c.addr.family, idOf a) := by
    intro b text
    simp only [addressOf_text text, Option.filter_some, decide_eq_true unwanted, if_true,
      Option.bind_some, chosen]
  -- another object with the text would be found in its place, and deleted twice
  have same := eq_of_nodup_filterMap (victims_eq ▸ nodup) (listed reported) (listed first)
    (found' text) (found' text')
  rw [same, victims_eq]
  exact List.mem_filterMap.mpr ⟨a, listed first, found' text'⟩

/-- The addresses are the wanted ones in the end exactly if all of them can be told. -/
theorem readings_iff_canonical (nodup : (victims i r).Nodup) :
    (∀ reading, ((∃ family, ∃ o ∈ r.reported i.identifier family,
        (family, idOf o) ∉ victims i r ∧ addressOf o = reading) ∨
          ∃ c ∈ newAddresses i r, reading = some c) ↔ ∃ c ∈ i.addresses, reading = some c) ↔
      Canonical i r := by
  constructor
  · intro exact family o reported
    by_cases deleted : (family, idOf o) ∈ victims i r
    · obtain ⟨c, -, text, here⟩ := text_of_mem_victims reported deleted
      exact ⟨c, addressOf_text text, .inr ⟨text, here⟩⟩
    · obtain ⟨c, wanted, read⟩ := (exact _).mp (.inl ⟨family, o, reported, deleted, rfl⟩)
      exact ⟨c, read, .inl wanted⟩
  · intro canonical reading
    constructor
    · rintro (⟨family, o, reported, kept, rfl⟩ | ⟨c, new, rfl⟩)
      · obtain ⟨c, read, wanted | ⟨text, rfl⟩⟩ := canonical family o reported
        · exact ⟨c, wanted, read⟩
        · by_cases wanted : c ∈ i.addresses
          · exact ⟨c, wanted, read⟩
          · exact absurd (mem_victims_of_text nodup reported text wanted) kept
      · exact ⟨c, (List.mem_filter.mp new).1, rfl⟩
    · rintro ⟨c, wanted, rfl⟩
      by_cases current : c ∈ currentAddresses i r
      · obtain ⟨family, o, reported, read⟩ := mem_currentAddresses.mp current
        refine .inl ⟨family, o, reported, fun deleted => ?_, read⟩
        obtain ⟨c', unwanted, text, -⟩ := text_of_mem_victims reported deleted
        obtain rfl := Option.some.inj (read.symm.trans (addressOf_text text))
        exact unwanted wanted
      · exact .inr ⟨c, List.mem_filter.mpr ⟨wanted, decide_eq_true current⟩, rfl⟩

end Addresses

section Interface

variable {fw : Firmware} {i : Interface} {circumstances : ℕ → Circumstance} {n : ℕ} {w : World}

/-- The router once the settings were written -/
def Router.written (r : Router) (pi : PhysicalInterface) (extras : MikrotikInterfaceExtras) :
    Router :=
  { r with wireguard := Router.updateRow r.wireguard extras.id (interfacePayload pi extras) }

variable (fw i circumstances n w) in
theorem completes_updateIpAddresses (deviceName : String)
    (current : Family → List GenericJsonObject) (new obsolete : List Cidr) :
    ∃ r', Gains (w.withoutAll (obsolete.filterMap (victim current))).router r' deviceName new ∧
      Completes fw i circumstances
        (updateIpAddresses deviceName (current .v4) (current .v6) new obsolete) n w
        ((obsolete.filterMap (victim current)).length + new.length)
        ((obsolete.filterMap (victim current)).Nodup ∧
          ∀ v ∈ obsolete.filterMap (victim current), Known w v) () { w with router := r' } := by
  obtain ⟨r', gains, created⟩ := completes_createNew fw i circumstances
    (n + (obsolete.filterMap (victim current)).length)
    (w.withoutAll (obsolete.filterMap (victim current))) deviceName new
  refine ⟨r', gains, ?_⟩
  have updates := (withoutAll_frame (w := w) (obsolete.filterMap (victim current))).2
  rw [updates] at created
  exact Completes.congr (Completes.bind (completes_deleteObsolete current obsolete)
    (fun err => ⟨_, rfl⟩) created) rfl (iff_of_eq (and_true _))

variable (fw circumstances n) in
theorem completes_updateInterface (pi : PhysicalInterface) (extras : MikrotikInterfaceExtras)
    (addresses : pi.addresses = i.addresses) (identifier : pi.identifier = i.identifier)
    {row : GenericJsonObject} (stored : w.router.wireguard.find extras.id = some row) :
    ∃ r', Gains (World.withoutAll { w with router := w.router.written pi extras }
          (victims i w.router)).router r' i.identifier (newAddresses i w.router) ∧
      Completes fw i circumstances (updateInterface pi extras) n w
        (3 + (victims i w.router).length + (newAddresses i w.router).length)
        (victims i w.router).Nodup () { w with router := r' } := by
  have updated : w.router.update extras.id (interfacePayload pi extras) .wireguard =
      .ok (Router.overlay (interfacePayload pi extras) row, w.router.written pi extras) := by
    rw [Router.update, stored]
    rfl
  obtain ⟨r', gains, changed⟩ := completes_updateIpAddresses fw i circumstances (n + 1 + 2)
    { w with router := w.router.written pi extras } i.identifier
    (w.router.reported i.identifier) (newAddresses i w.router)
    ((currentAddresses i w.router).filter fun addr => addr ∉ i.addresses)
  refine ⟨r', gains, ?_⟩
  unfold updateInterface
  rw [addresses, identifier]
  refine Completes.congr (Completes.bind (completes_update updated) (fun err => ⟨_, rfl⟩) ?_)
    (show 1 + (2 + ((victims i w.router).length + (newAddresses i w.router).length)) = _ by omega)
    (iff_of_eq (true_and _))
  refine Completes.congr (Completes.bind (completes_loadIpAddresses _) (fun err => ⟨_, rfl⟩) ?_)
    rfl (iff_of_eq (true_and _))
  refine Completes.congr (Completes.bind changed (fun err => ⟨_, rfl⟩) completes_return) rfl ?_
  rw [and_true]
  exact and_iff_left fun v mem => known_of_mem_victims (w := w) mem

/-- What is done with the interface that was found or created -/
def saveLoaded : Except Error PhysicalInterface → ApiProgram (Except Error Unit)
  | .error err => return .error err
  | .ok physicalInterface =>
    match physicalInterface.backendExtras with
    | none => return .error noExtras
    | some extras => do
      match ← issue (.updateFunc physicalInterface) with
      | .error err => return .error err
      | .ok updated =>
        match updated.backendExtras with
        | none => return .error noExtras
        | some newExtras => updateInterface updated { newExtras with id := extras.id }

theorem saveInterface_eq (id : InterfaceIdentifier) :
    saveInterface id = getOrCreateInterface id >>= saveLoaded := by
  unfold saveInterface
  refine congrArg _ (funext fun loaded => ?_)
  cases loaded <;> rfl

theorem completes_updateFunc (pi : PhysicalInterface) :
    Completes fw i circumstances (issue (.updateFunc pi)) n w 0 True (mergeToPhysicalInterface pi i)
      { w with updates := w.updates ++ [pi] } where
  done _ _ := rfl
  error impossible := absurd ⟨trivial, quiet_zero circumstances n⟩ impossible

/-- The extras that the merged interface is written with -/
def mergedExtras (i : Interface) (o : GenericJsonObject) : MikrotikInterfaceExtras :=
  ⟨o.getString ".id", i.displayName, i.isDisabled⟩

/-- The settings are written, and the addresses are deleted and created. -/
structure Written (r : Router) (i : Interface) (r' : Router) : Prop where
  settings : HasSettings r' i
  readings : ∀ reading, reading ∈ r'.readings i.identifier ↔
    (∃ family, ∃ o ∈ r.reported i.identifier family,
      (family, idOf o) ∉ victims i r ∧ addressOf o = reading) ∨
        ∃ c ∈ newAddresses i r, reading = some c

variable (fw circumstances n) in
theorem completes_saveLoaded {o row : GenericJsonObject} (named : o.getString "name" = i.identifier)
    (stored : w.router.wireguard.find (idOf o) = some row) :
    ∃ w', Written w.router i w'.router ∧
      Completes fw i circumstances (loadInterfaceData o >>= saveLoaded) n w
        (6 + (victims i w.router).length + (newAddresses i w.router).length)
        (victims i w.router).Nodup () w' := by
  let loaded := convertWireGuardInterface o (currentAddresses i w.router)
  let merged := mergeToPhysicalInterface loaded i
  let w' : World := { w with updates := w.updates ++ [loaded] }
  obtain ⟨r', gains, updated⟩ := completes_updateInterface fw circumstances (n + 3 + 0)
    (i := i) (w := w') merged (mergedExtras i o) rfl rfl stored
  refine ⟨{ w' with router := r' }, ⟨?_, fun reading => ?_⟩, ?_⟩
  · refine ⟨Router.overlay (interfacePayload merged (mergedExtras i o)) row, ?_, rfl, rfl, rfl, rfl,
      rfl, ?_⟩
    · rw [gains.wireguard, (withoutAll_frame _).1]
      refine List.mem_map.mpr ⟨row, Table.mem_of_find stored, ?_⟩
      exact if_pos (Table.key_of_find stored)
    · exact congrArg formatBool (Bool.not_not i.isDisabled)
  · rw [gains.readings, mem_readings]
    simp only [mem_reported_withoutAll, and_assoc]
    rfl
  · refine Completes.congr
      (Completes.bind (completes_loadInterfaceData _ _ _ _ _ o) (fun err => ⟨_, rfl⟩) ?_)
      (show 3 + (3 + (victims i w.router).length + (newAddresses i w.router).length) = _ by omega)
      (iff_of_eq (true_and _))
    rw [named]
    refine Completes.congr (Completes.bind (completes_updateFunc _) (fun err => ⟨_, rfl⟩) ?_)
      (show 0 + (3 + (victims i w.router).length + (newAddresses i w.router).length) = _ by omega)
      (iff_of_eq (true_and _))
    exact updated

/-- The interfaces with the name -/
def Router.found (r : Router) (id : InterfaceIdentifier) : List GenericJsonObject :=
  (r.wireguard.rows.filter (Router.meets [("name", id)])).map (Router.project interfaceProperties)

theorem inTurn_lookup (id : InterfaceIdentifier) :
    ApiOp.inTurn fw i circumstances (.query .wireguard interfaceProperties [("name", id)]) (n, w) =
      (match (circumstances n).fault with
        | some err => .error err
        | none => .ok (w.router.found id), (n + 1, w)) := by
  simp only [ApiOp.inTurn, ApiOp.exec]
  cases (circumstances n).fault <;> rfl

theorem getOrCreateInterface_of_found {id : InterfaceIdentifier} {o : GenericJsonObject}
    {others : List GenericJsonObject} (quiet : (circumstances n).fault = none)
    (found : w.router.found id = o :: others) :
    (getOrCreateInterface id).eval (ApiOp.inTurn fw i circumstances) (n, w) =
      (loadInterfaceData o).eval (ApiOp.inTurn fw i circumstances) (n + 1, w) := by
  unfold getOrCreateInterface
  simp only [issue, Program.perform_bind, Program.eval_call]
  rw [inTurn_lookup, quiet, found]

theorem getOrCreateInterface_of_empty {id : InterfaceIdentifier}
    (quiet : (circumstances n).fault = none) (empty : w.router.found id = []) :
    (getOrCreateInterface id).eval (ApiOp.inTurn fw i circumstances) (n, w) =
      (issue (.create .wireguard (.ofList [("name", .string id)])) >>= fun createReply =>
        loadInterfaceData (replyData createReply)).eval
          (ApiOp.inTurn fw i circumstances) (n + 1, w) := by
  unfold getOrCreateInterface
  simp only [issue, Program.perform_bind, Program.eval_call]
  rw [inTurn_lookup, quiet, empty]
  rfl

variable (fw i w) in
/-- An interface may be created nevertheless. -/
theorem getOrCreateInterface_of_error (id : InterfaceIdentifier) {err : String}
    (fault : (circumstances n).fault = some err) :
    ∃ text, (getOrCreateInterface id).eval (ApiOp.inTurn fw i circumstances) (n, w) =
      (.error text, (ApiOp.inTurn fw i circumstances
        (.create .wireguard (.ofList [("name", .string id)])) (n + 1, w)).2) := by
  unfold getOrCreateInterface
  simp only [issue, Program.perform_bind, Program.eval_call]
  rw [inTurn_lookup, fault]
  exact ⟨_, rfl⟩

theorem named_iff {r : Router} {id : InterfaceIdentifier} : Named r id ↔ r.found id ≠ [] := by
  simp [Named, Router.found, Router.meets, List.filter_eq_nil_iff]

/-- An interface that is found has the name and is stored. -/
theorem stored_of_mem_found {r : Router} {id : InterfaceIdentifier} {o : GenericJsonObject}
    (mem : o ∈ r.found id) :
    o.getString "name" = id ∧ ∃ row, r.wireguard.find (idOf o) = some row := by
  obtain ⟨row, listed, rfl⟩ := List.mem_map.mp mem
  obtain ⟨listed, meets⟩ := List.mem_filter.mp listed
  have named : row.getString "name" = id := by simpa [Router.meets] using meets
  exact ⟨named, row, Table.find_of_mem listed⟩

/-- A new interface is stored with the name, and nothing else is changed. -/
theorem create_wireguard (fw : Firmware) {r : Router} {id : InterfaceIdentifier}
    (new : ¬ Named r id) :
    ∃ o t, r.create fw (.ofList [("name", .string id)]) .wireguard =
        .ok (o, { r with wireguard := t }) ∧
      t.rows = r.wireguard.rows ++ [o] ∧ o.getString "name" = id := by
  obtain ⟨t, inserted, rows⟩ :=
    Router.insert_created fw r.wireguard (.ofList [("name", .string id)]) fw.defaults
  refine ⟨_, t, ?_, rows, rfl⟩
  have free : ¬ (r.wireguard.rows.map (·.getString "name")).contains id = true := by
    simpa [Named] using new
  exact (if_neg free).trans (by simp only [inserted])

/-- The result once the interface is there -/
theorem correct_iff_of_completes {r : Router} {t : Table idOf} {w' : World}
    {updates : List PhysicalInterface}
    (available : ¬ Unavailable i circumstances r) (before : Quiet circumstances 0 n)
    (count : requests i r = n + (6 + (victims i r).length + (newAddresses i r).length))
    {p : ApiProgram (Except Error Unit)}
    (run : (saveInterface i.identifier).eval (ApiOp.inTurn fw i circumstances) (0, ⟨r, []⟩) =
      p.eval (ApiOp.inTurn fw i circumstances) (n, ⟨{ r with wireguard := t }, updates⟩))
    (written : Written { r with wireguard := t } i w'.router)
    (completes : Completes fw i circumstances p n ⟨{ r with wireguard := t }, updates⟩
      (6 + (victims i r).length + (newAddresses i r).length) (victims i r).Nodup () w') :
    Correct fw i circumstances r ↔ Canonical i r ∨ Doomed i circumstances r := by
  by_cases possible : (victims i r).Nodup ∧
      Quiet circumstances n (6 + (victims i r).length + (newAddresses i r).length)
  · have result : save fw i circumstances r = (.ok (), w') := by
      rw [save, run, completes.done possible.1 possible.2]
    have survives : ¬ Doomed i circumstances r := by
      rintro (twice | ⟨m, below, fault⟩)
      · exact twice possible.1
      · rw [count] at below
        exact fault (quiet_add.mpr ⟨before, (Nat.zero_add n).symm ▸ possible.2⟩ m (Nat.zero_le m)
          (by omega))
    rw [or_iff_left survives, ← readings_iff_canonical possible.1]
    constructor
    · intro correct reading
      rw [← (correct.saved (by rw [result])).addresses reading, result]
      exact (written.readings reading).symm
    · intro exact
      refine ⟨fun _ => ?_, (absurd · available), (absurd · available), (absurd · available)⟩
      rw [result]
      exact ⟨written.settings, fun reading => (written.readings reading).trans (exact reading)⟩
  · obtain ⟨err, fails⟩ := completes.error possible
    have result : (save fw i circumstances r).1 = .error err := by
      rw [save, run, fails]
    refine iff_of_true ⟨fun ok => ?_, (absurd · available), (absurd · available),
      (absurd · available)⟩ (.inr ?_)
    · cases result.symm.trans ok
    · by_contra survives
      obtain ⟨once, quiet⟩ := not_or.mp survives
      refine possible ⟨not_not.mp once, fun m start stop => ?_⟩
      by_contra fault
      exact quiet ⟨m, by omega, fault⟩

theorem saveInterface_of_found {r : Router} {o : GenericJsonObject}
    {others : List GenericJsonObject} (quiet : (circumstances 0).fault = none)
    (found : r.found i.identifier = o :: others) :
    (saveInterface i.identifier).eval (ApiOp.inTurn fw i circumstances) (0, ⟨r, []⟩) =
      (loadInterfaceData o >>= saveLoaded).eval (ApiOp.inTurn fw i circumstances) (1, ⟨r, []⟩) := by
  rw [saveInterface_eq, Program.eval_bind, getOrCreateInterface_of_found quiet found,
    ← Program.eval_bind]

/-- The reply to the creation is read in any case. -/
theorem saveInterface_of_empty {r r' : Router} {reply : Except String GenericJsonObject}
    (quiet : (circumstances 0).fault = none) (empty : r.found i.identifier = [])
    (created : (issue (.create .wireguard (.ofList [("name", .string i.identifier)]))).eval
      (ApiOp.inTurn fw i circumstances) (1, ⟨r, []⟩) = (reply, (2, ⟨r', []⟩))) :
    (saveInterface i.identifier).eval (ApiOp.inTurn fw i circumstances) (0, ⟨r, []⟩) =
      (loadInterfaceData (replyData reply) >>= saveLoaded).eval (ApiOp.inTurn fw i circumstances)
        (2, ⟨r', []⟩) := by
  rw [saveInterface_eq, Program.eval_bind, getOrCreateInterface_of_empty quiet empty,
    Program.eval_bind, created, ← Program.eval_bind]

variable (fw i circumstances n w) in
/-- The creation of an interface changes nothing else. -/
theorem create_frame (id : InterfaceIdentifier) :
    let w' := (ApiOp.inTurn fw i circumstances
      (.create .wireguard (.ofList [("name", .string id)])) (n, w)).2.2
    w'.updates = w.updates ∧ w'.router.addresses = w.router.addresses ∧
      ∀ o, o.getString "name" ≠ id →
        (o ∈ w'.router.wireguard.rows ↔ o ∈ w.router.wireguard.rows) := by
  simp only [ApiOp.inTurn, ApiOp.exec]
  cases (circumstances n).fault with
  | some err => simp
  | none =>
    by_cases known : Named w.router id
    · have taken : (w.router.wireguard.rows.map (·.getString "name")).contains id = true := by
        simpa [Named] using known
      have refused : w.router.create fw (.ofList [("name", .string id)]) .wireguard =
          .error "failure: already have interface with such name" := if_pos taken
      simp [refused, World.answer]
    · obtain ⟨o, t, created, rows, named⟩ := create_wireguard fw known
      simp only [created, World.answer, rows, true_and]
      intro o' other
      rw [List.mem_append, List.mem_singleton]
      exact or_iff_left fun same => other (same ▸ named)

variable (fw i circumstances n w) in
/-- Loading an interface changes nothing. -/
theorem loadInterfaceData_frame (o : GenericJsonObject) :
    ((loadInterfaceData o).eval (ApiOp.inTurn fw i circumstances) (n, w)).2.2 = w := by
  let reads : ApiOp → Prop := fun op =>
    match op with
    | .query .. | .get .. => True
    | _ => False
  have addresses : (loadIpAddresses (o.getString "name")).Uses reads :=
    ⟨trivial, fun v4 => ⟨trivial, fun v6 => by cases v4 <;> cases v6 <;> trivial⟩⟩
  have uses : (loadInterfaceData o).Uses reads := by
    refine ⟨trivial, fun answer => ?_⟩
    cases answer with
    | error err => trivial
    | ok stats => exact addresses.bind fun loaded => by cases loaded <;> trivial
  have step : ∀ op s, reads op → s.2 = w →
      (ApiOp.inTurn fw i circumstances op s).2.2 = w := by
    intro op s readsOnly same
    cases op with
    | query path propList filters =>
      rw [← same]
      simp only [ApiOp.inTurn, ApiOp.exec]
      cases (circumstances s.1).fault <;> rfl
    | get path id propList =>
      rw [← same]
      simp only [ApiOp.inTurn, ApiOp.exec]
      cases (circumstances s.1).fault <;> rfl
    | create | update | delete | updateFunc => cases readsOnly
  exact uses.eval_invariant step rfl

theorem updates_answer {α : Type} (result : Except String (α × Router)) :
    (w.answer result).2.updates = w.updates := by
  cases result <;> rfl

/-- A call of the update function is remembered. -/
theorem updates_inTurn (op : ApiOp) (s : ℕ × World) (called : s.2.updates ≠ []) :
    (ApiOp.inTurn fw i circumstances op s).2.2.updates ≠ [] := by
  cases op with
  | updateFunc pi => simp [ApiOp.inTurn, ApiOp.exec]
  | query | get =>
    simp only [ApiOp.inTurn, ApiOp.exec]
    cases (circumstances s.1).fault <;> exact called
  | create | update | delete =>
    simp only [ApiOp.inTurn, ApiOp.exec]
    cases (circumstances s.1).fault with
    | some err => exact called
    | none => exact (updates_answer _).symm ▸ called

theorem updates_saveLoaded (o : GenericJsonObject) (cidrs : List Cidr) (s : ℕ × World) :
    ((saveLoaded (.ok (convertWireGuardInterface o cidrs))).eval
      (ApiOp.inTurn fw i circumstances) s).2.2.updates ≠ [] := by
  have rest : ∀ (p : ApiProgram (Except Error Unit)) (t : ℕ × World), t.2.updates ≠ [] →
      (p.eval (ApiOp.inTurn fw i circumstances) t).2.2.updates ≠ [] := fun p t called =>
    (Program.Uses.of_all (P := fun _ => True) (fun _ => trivial) p).eval_invariant
      (fun op t _ called => updates_inTurn op t called) called
  let called := s.2.updates ++ [convertWireGuardInterface o cidrs]
  exact rest _ (s.1, { s.2 with updates := called }) (by simp [called])

/-- The error of a creation is not read, so the interface may be saved without being there. -/
theorem correct_iff_of_refused {r : Router} {err : String}
    (quiet : (circumstances 0).fault = none) (new : ¬ Named r i.identifier)
    (fault : (circumstances 1).fault = some err) :
    Correct fw i circumstances r ↔ Noticed i circumstances r := by
  have empty : r.found i.identifier = [] := not_not.mp (named_iff.not.mp new)
  have created : (issue (.create .wireguard (.ofList [("name", .string i.identifier)]))).eval
      (ApiOp.inTurn fw i circumstances) (1, ⟨r, []⟩) = (.error err, (2, ⟨r, []⟩)) := by
    simp only [issue, Program.perform, Program.eval_call, Program.eval_ret, ApiOp.inTurn,
      ApiOp.exec, fault]
  have run := saveInterface_of_empty quiet empty created
  have unavailable : Unavailable i circumstances r := .inr ⟨new, by simp [fault]⟩
  have loads := completes_loadInterfaceData fw i circumstances 2 ⟨r, []⟩ (replyData (.error err))
  have noticed : Noticed i circumstances r ↔ ¬ Quiet circumstances 2 3 := by
    refine not_congr ⟨fun all m start stop => all.2.2.2 m ?_, fun loaded => ?_⟩
    · have : m = 2 ∨ m = 3 ∨ m = 4 := by omega
      simpa using this
    · refine ⟨new, quiet, by simp [fault], fun m mem => loaded m ?_ ?_⟩ <;>
        simp only [List.mem_cons, List.not_mem_nil, or_false] at mem <;> omega
  rw [noticed]
  by_cases loaded : Quiet circumstances 2 3
  · refine iff_of_false (fun correct => ?_) (not_not.mpr loaded)
    have called := correct.quiet unavailable
    rw [save, run, Program.eval_bind, loads.done trivial loaded] at called
    exact updates_saveLoaded _ _ _ called
  · obtain ⟨text, fails⟩ := loads.error fun can => loaded can.2
    have kept := loadInterfaceData_frame fw i circumstances 2 ⟨r, []⟩ (replyData (.error err))
    have result : save fw i circumstances r = (.error text, ⟨r, []⟩) := by
      rw [save, run, Program.eval_bind, fails]
      exact Prod.ext rfl kept
    refine iff_of_true ⟨fun ok => ?_, fun _ => ⟨text, by rw [result]⟩, fun _ => by rw [result],
      fun _ => by rw [result]; exact ⟨rfl, fun _ _ => Iff.rfl⟩⟩ loaded
    rw [result] at ok
    cases ok

/-- Saving does what it should exactly if a failed creation is noticed, and all addresses can be
told or the call fails anyway. -/
theorem correct_iff (fw : Firmware) (i : Interface) (circumstances : ℕ → Circumstance)
    (r : Router) : Correct fw i circumstances r ↔
      Noticed i circumstances r ∧ (Canonical i r ∨ Doomed i circumstances r) := by
  cases quiet : (circumstances 0).fault with
  | some err =>
    obtain ⟨text, evaluated⟩ := getOrCreateInterface_of_error fw i ⟨r, []⟩ i.identifier quiet
    have frame := create_frame fw i circumstances 1 ⟨r, []⟩ i.identifier
    have result : save fw i circumstances r = (.error text, (ApiOp.inTurn fw i circumstances
        (.create .wireguard (.ofList [("name", .string i.identifier)])) (1, ⟨r, []⟩)).2.2) := by
      rw [save, saveInterface_eq, Program.eval_bind, evaluated]
      rfl
    have noticed : Noticed i circumstances r := fun all => by simp [quiet] at all
    have doomed : Doomed i circumstances r := by
      refine .inr ⟨0, ?_, by simp [quiet]⟩
      unfold requests
      split <;> omega
    refine iff_of_true ⟨fun ok => ?_, fun _ => ⟨text, by rw [result]⟩, fun _ => ?_, fun _ => ?_⟩
      ⟨noticed, .inr doomed⟩
    · rw [result] at ok
      cases ok
    · rw [result]
      exact frame.1
    · rw [result]
      exact frame.2
  | none =>
    have before : Quiet circumstances 0 1 := quiet_one.mpr quiet
    cases found : r.found i.identifier with
    | cons o others =>
      have named : Named r i.identifier := named_iff.mpr (by simp [found])
      have noticed : Noticed i circumstances r := fun all => all.1 named
      obtain ⟨name, row, stored⟩ := stored_of_mem_found (found ▸ List.mem_cons_self)
      obtain ⟨w', written, completes⟩ := completes_saveLoaded fw circumstances 1 (i := i)
        (w := ⟨r, []⟩) name stored
      have available : ¬ Unavailable i circumstances r := by
        rintro (fails | ⟨new, -⟩)
        · exact fails quiet
        · exact new named
      have count : requests i r = 1 + (6 + (victims i r).length + (newAddresses i r).length) := by
        rw [requests, if_pos named]
      rw [correct_iff_of_completes available before count (saveInterface_of_found quiet found)
        written completes]
      exact (and_iff_right noticed).symm
    | nil =>
      have new : ¬ Named r i.identifier := named_iff.not.mpr (not_not.mpr found)
      cases quiet' : (circumstances 1).fault with
      | some err =>
        have doomed : Doomed i circumstances r := by
          refine .inr ⟨1, ?_, by simp [quiet']⟩
          rw [requests, if_neg new]
          omega
        rw [correct_iff_of_refused quiet new quiet']
        exact (and_iff_left (.inr doomed)).symm
      | none =>
        have noticed : Noticed i circumstances r := fun all => all.2.2.1 quiet'
        obtain ⟨o, t, created, rows, name⟩ := create_wireguard fw new
        have stored : t.find (idOf o) = some o :=
          Table.find_of_mem (rows ▸ List.mem_append_right _ (List.mem_singleton_self o))
        have reply := (completes_create (i := i) (w := ⟨r, []⟩) created).done trivial
          (quiet_one.mpr quiet')
        obtain ⟨w', written, completes⟩ := completes_saveLoaded fw circumstances 2 (i := i)
          (w := ⟨{ r with wireguard := t }, []⟩) name stored
        have available : ¬ Unavailable i circumstances r := by
          rintro (fails | ⟨-, fails⟩)
          · exact fails quiet
          · exact fails quiet'
        have count : requests i r = 2 + (6 + (victims i r).length + (newAddresses i r).length) := by
          rw [requests, if_neg new]
        have before' : Quiet circumstances 0 (1 + 1) :=
          quiet_add.mpr ⟨before, quiet_one.mpr quiet'⟩
        rw [correct_iff_of_completes available before' count
          (saveInterface_of_empty quiet found reply) written completes]
        exact (and_iff_right noticed).symm

end Interface

/-- Identifiers longer than all the others -/
def plainFirmware : Firmware where
  newId ids := String.ofList (List.replicate ((ids.map String.length).max?.getD 0 + 1) '*')
  fresh ids mem := by
    have bound := List.le_max?_getD_of_mem (k := 0) (List.mem_map_of_mem (f := String.length) mem)
    rw [String.length_ofList, List.length_replicate] at bound
    omega
  defaults := .ofList []

def emptyRouter : Router := ⟨Table.empty, fun _ => Table.empty⟩

/-- Only the second request fails, by which the interface would be created. -/
def refusedCreation (n : ℕ) : Circumstance := ⟨if n = 1 then some "refused" else none, .ofList []⟩

/-- The update function is called for an interface that could not be created. -/
theorem refusedCreation_not_correct :
    ¬ Correct plainFirmware { Interface.zero with identifier := "wg0" } refusedCreation
      emptyRouter := by
  have new : ¬ Named emptyRouter "wg0" := by
    rintro ⟨o, mem, -⟩
    cases mem
  rw [correct_iff_of_refused rfl new rfl, Noticed, not_not]
  exact ⟨new, rfl, by decide, by decide⟩

end WgPortal.WgController.Mikrotik
