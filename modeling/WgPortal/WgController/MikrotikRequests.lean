import WgPortal.WgController.MikrotikRouter

/-! How the requests of a Mikrotik controller complete, when any of them may fail. -/

namespace WgPortal.WgController.Mikrotik

open Domain Library
open Library.NetIP (Family)
open ApiProgram (issue)

/-- The addresses of an interface that are asked for -/
def Router.reported (r : Router) (deviceName : String) (family : Family) : List GenericJsonObject :=
  ((r.addresses family).rows.filter (Router.meets (addressFilters deviceName))).map
    (Router.project [".id", "address", "network"])

def addressOf (o : GenericJsonObject) : Option Cidr := cidrFromString (o.getString "address")

/-- What the reported addresses of the interface are -/
def Router.readings (r : Router) (deviceName : String) : List (Option Cidr) :=
  (r.reported deviceName .v4 ++ r.reported deviceName .v6).map addressOf

/-- The first object with the text of the address -/
def victim (current : Family → List GenericJsonObject) (c : Cidr) : Option (Family × String) :=
  ((current c.addr.family).find? fun a => a.getString "address" = cidrText c).map
    fun a => (c.addr.family, idOf a)

/-- The requests from the `n`-th one on do not fail. -/
def Quiet (circumstances : ℕ → Circumstance) (n k : ℕ) : Prop :=
  ∀ m, n ≤ m → m < n + k → (circumstances m).fault = none

theorem quiet_zero (circumstances : ℕ → Circumstance) (n : ℕ) : Quiet circumstances n 0 :=
  fun m start stop => by omega

theorem quiet_one {circumstances : ℕ → Circumstance} {n : ℕ} :
    Quiet circumstances n 1 ↔ (circumstances n).fault = none := by
  refine ⟨fun quiet => quiet n (le_refl n) (by omega), fun none m start stop => ?_⟩
  obtain rfl : m = n := by omega
  exact none

theorem quiet_add {circumstances : ℕ → Circumstance} {n k k' : ℕ} :
    Quiet circumstances n (k + k') ↔ Quiet circumstances n k ∧ Quiet circumstances (n + k) k' := by
  constructor
  · exact fun quiet => ⟨fun m start stop => quiet m start (by omega),
      fun m start stop => quiet m (by omega) (by omega)⟩
  · rintro ⟨first, second⟩ m start stop
    by_cases before : m < n + k
    · exact first m start before
    · exact second m (by omega) (by omega)

section Completes

variable (fw : Firmware) (i : Interface) (circumstances : ℕ → Circumstance) {ε ε' α β : Type}

/-- The program succeeds, with these results, if it is possible and no request fails. -/
structure Completes (p : ApiProgram (Except ε α)) (n : ℕ) (w : World) (k : ℕ)
    (possible : Prop) (v : α) (w' : World) : Prop where
  done : possible → Quiet circumstances n k →
    p.eval (ApiOp.inTurn fw i circumstances) (n, w) = (.ok v, (n + k, w'))
  error : ¬ (possible ∧ Quiet circumstances n k) →
    ∃ err, (p.eval (ApiOp.inTurn fw i circumstances) (n, w)).1 = .error err

variable {fw i circumstances} {n k k' : ℕ} {w w' w'' : World} {possible possible' : Prop} {v : α}
  {v' : β}

theorem completes_return :
    Completes fw i circumstances (return (.ok v : Except ε α)) n w 0 True v w where
  done _ _ := rfl
  error impossible := absurd ⟨trivial, quiet_zero circumstances n⟩ impossible

/-- One program after the other; an error of the first one is the end. -/
theorem Completes.bind {p : ApiProgram (Except ε α)}
    {rest : Except ε α → ApiProgram (Except ε' β)}
    (first : Completes fw i circumstances p n w k possible v w')
    (ends : ∀ err, ∃ err', rest (.error err) = return .error err')
    (second : Completes fw i circumstances (rest (.ok v)) (n + k) w' k' possible' v' w'') :
    Completes fw i circumstances (p >>= rest) n w (k + k') (possible ∧ possible') v' w'' where
  done can quiet := by
    obtain ⟨quiet, quiet'⟩ := quiet_add.mp quiet
    rw [Program.eval_bind, first.done can.1 quiet, second.done can.2 quiet', Nat.add_assoc]
  error cannot := by
    rw [Program.eval_bind]
    by_cases can : possible ∧ Quiet circumstances n k
    · rw [first.done can.1 can.2]
      exact second.error fun can' => cannot ⟨⟨can.1, can'.1⟩, quiet_add.mpr ⟨can.2, can'.2⟩⟩
    · obtain ⟨err, fails⟩ := first.error can
      obtain ⟨err', ended⟩ := ends err
      rw [fails, ended]
      exact ⟨err', rfl⟩

theorem Completes.congr {p : ApiProgram (Except ε α)}
    (completes : Completes fw i circumstances p n w k possible v w') (count : k = k')
    (same : possible ↔ possible') : Completes fw i circumstances p n w k' possible' v w' := by
  rwa [← count, ← propext same]

end Completes

section Requests

variable {fw : Firmware} {i : Interface} {circumstances : ℕ → Circumstance} {n : ℕ} {w : World}

/-- A single request, which is not carried out if it fails -/
theorem completes_request {α : Type} {p : ApiProgram (Except String α)} {possible : Prop} {v : α}
    {answer : Except String α} {w' : World}
    (request : p.eval (ApiOp.inTurn fw i circumstances) (n, w) =
      match (circumstances n).fault with
      | some err => (.error err, (n + 1, w))
      | none => (answer, (n + 1, w')))
    (can : possible → answer = .ok v) (cannot : ¬ possible → ∃ err, answer = .error err) :
    Completes fw i circumstances p n w 1 possible v w' where
  done succeeds quiet := by rw [request, quiet_one.mp quiet, can succeeds]
  error impossible := by
    rw [request]
    cases fault : (circumstances n).fault with
    | some err => exact ⟨err, rfl⟩
    | none => exact cannot fun succeeds => impossible ⟨succeeds, quiet_one.mpr fault⟩

theorem eval_queryAddresses (family : Family) (deviceName : String) :
    (queryAddresses family deviceName).eval (ApiOp.inTurn fw i circumstances) (n, w) =
      (match (circumstances n).fault with
        | some err => .error err
        | none => .ok (w.router.reported deviceName family), (n + 1, w)) := by
  simp only [queryAddresses, issue, Program.perform, Program.eval_call, Program.eval_ret,
    ApiOp.inTurn, ApiOp.exec]
  cases (circumstances n).fault <;> rfl

theorem completes_get (path : Path) (id : String) (propList : List String) :
    Completes fw i circumstances (issue (.get path id propList)) n w 1 True
      (Router.project propList (circumstances n).stats) w := by
  refine completes_request ?_ (fun _ => rfl) (absurd trivial)
  simp only [issue, Program.perform, Program.eval_call, Program.eval_ret, ApiOp.inTurn, ApiOp.exec]
  cases (circumstances n).fault <;> rfl

theorem completes_create {path : Path} {payload o : GenericJsonObject} {r : Router}
    (created : w.router.create fw payload path = .ok (o, r)) :
    Completes fw i circumstances (issue (.create path payload)) n w 1 True o
      { w with router := r } := by
  refine completes_request ?_ (fun _ => rfl) (absurd trivial)
  simp only [issue, Program.perform, Program.eval_call, Program.eval_ret, ApiOp.inTurn, ApiOp.exec,
    created, World.answer]
  cases (circumstances n).fault <;> rfl

theorem completes_update {path : Path} {id : String} {payload o : GenericJsonObject} {r : Router}
    (updated : w.router.update id payload path = .ok (o, r)) :
    Completes fw i circumstances (issue (.update path id payload)) n w 1 True o
      { w with router := r } := by
  refine completes_request ?_ (fun _ => rfl) (absurd trivial)
  simp only [issue, Program.perform, Program.eval_call, Program.eval_ret, ApiOp.inTurn, ApiOp.exec,
    updated, World.answer]
  cases (circumstances n).fault <;> rfl

/-- The world without an address -/
def World.without (w : World) (family : Family) (id : String) : World :=
  { w with router := { w.router with
      addresses := Function.update w.router.addresses family
        ((w.router.addresses family).filter (idOf · ≠ id)) } }

theorem completes_delete (family : Family) (id : String) :
    Completes fw i circumstances (issue (.delete (.address family) id)) n w 1
      (∃ o, (w.router.addresses family).find id = some o) () (w.without family id) := by
  cases found : (w.router.addresses family).find id with
  | some o =>
    refine completes_request ?_ (fun _ => rfl) (absurd ⟨o, rfl⟩)
    simp only [issue, Program.perform, Program.eval_call, Program.eval_ret, ApiOp.inTurn,
      ApiOp.exec, Router.delete, found]
    cases (circumstances n).fault <;> rfl
  | none =>
    have unknown : ¬ ∃ o : GenericJsonObject, Option.none = some o := by simp
    constructor
    · exact fun known => absurd known unknown
    · intro _
      simp only [issue, Program.perform, Program.eval_call, Program.eval_ret, ApiOp.inTurn,
        ApiOp.exec, Router.delete, found]
      cases (circumstances n).fault with
      | some err => exact ⟨err, rfl⟩
      | none => exact ⟨"no such item", rfl⟩

theorem completes_loadIpAddresses (deviceName : String) :
    Completes fw i circumstances (loadIpAddresses deviceName) n w 2 True
      (w.router.reported deviceName .v4, w.router.reported deviceName .v6) w := by
  have quiet : Quiet circumstances n (1 + 1) ↔
      (circumstances n).fault = none ∧ (circumstances (n + 1)).fault = none := by
    rw [quiet_add, quiet_one, quiet_one]
  constructor
  · intro _ none
    obtain ⟨first, second⟩ := quiet.mp none
    simp only [loadIpAddresses, Program.eval_bind, eval_queryAddresses, first, second]
    rfl
  · intro fails
    simp only [loadIpAddresses, Program.eval_bind, eval_queryAddresses]
    cases first : (circumstances n).fault with
    | some err => exact ⟨_, rfl⟩
    | none =>
      cases second : (circumstances (n + 1)).fault with
      | some err => exact ⟨_, rfl⟩
      | none => exact absurd ⟨trivial, quiet.mpr ⟨first, second⟩⟩ fails

variable (fw i circumstances n w) in
theorem completes_loadInterfaceData (o : GenericJsonObject) :
    Completes fw i circumstances (loadInterfaceData o) n w 3 True
      (convertWireGuardInterface o (convertIpAddresses
        (w.router.reported (o.getString "name") .v4) (w.router.reported (o.getString "name") .v6)))
      w := by
  unfold loadInterfaceData
  refine Completes.congr (Completes.bind (completes_get ..) (fun err => ⟨_, rfl⟩) ?_)
    (show 1 + 2 = 3 from rfl) (and_self_iff)
  exact Completes.congr (Completes.bind (completes_loadIpAddresses _) (fun err => ⟨_, rfl⟩)
    completes_return) rfl and_self_iff

end Requests

section Loops

variable {fw : Firmware} {i : Interface} {circumstances : ℕ → Circumstance} {n : ℕ} {w : World}

/-- The object is still there. -/
def Known (w : World) (v : Family × String) : Prop :=
  ∃ o, (w.router.addresses v.1).find v.2 = some o

theorem known_without {family : Family} {id : String} {v : Family × String} :
    Known (w.without family id) v ↔ v ≠ (family, id) ∧ Known w v := by
  obtain ⟨family', id'⟩ := v
  unfold Known World.without
  by_cases here : family' = family
  · subst here
    simp only [Function.update_self, Table.find_filter, ne_eq, Prod.mk.injEq, true_and]
    cases found : (w.router.addresses family').find id' with
    | none => simp
    | some o => simp [Option.filter, Table.key_of_find found]
  · simp [here]

/-- The world without some addresses -/
def World.withoutAll (w : World) (vs : List (Family × String)) : World :=
  vs.foldl (fun w v => w.without v.1 v.2) w

theorem completes_deleteObsolete (current : Family → List GenericJsonObject)
    (obsolete : List Cidr) :
    Completes fw i circumstances (deleteObsolete (current .v4) (current .v6) obsolete) n w
      (obsolete.filterMap (victim current)).length
      ((obsolete.filterMap (victim current)).Nodup ∧
        ∀ v ∈ obsolete.filterMap (victim current), Known w v) ()
      (w.withoutAll (obsolete.filterMap (victim current))) := by
  induction obsolete generalizing n w with
  | nil => exact completes_return.congr rfl (by simp)
  | cons addr obsolete ih =>
    have chosen : (if addr.addr.family = .v4 then current .v4 else current .v6) =
        current addr.addr.family := by
      cases addr.addr.family <;> rfl
    rw [deleteObsolete]
    dsimp only
    rw [chosen]
    cases found : (current addr.addr.family).find?
        fun a => a.getString "address" = cidrText addr with
    | none =>
      have none : victim current addr = none := by
        rw [victim, found]
        rfl
      rw [List.filterMap_cons_none none]
      exact ih
    | some a =>
      have first : victim current addr = some (addr.addr.family, idOf a) := by
        rw [victim, found]
        rfl
      rw [List.filterMap_cons_some first, List.length_cons, Nat.add_comm]
      dsimp only
      have rest := ih (n := n + 1) (w := w.without addr.addr.family (idOf a))
      refine Completes.congr
        (Completes.bind (completes_delete ..) (fun err => ⟨_, rfl⟩) rest) rfl ?_
      simp only [known_without, List.nodup_cons, List.forall_mem_cons]
      constructor
      · rintro ⟨known, nodup, others⟩
        exact ⟨⟨fun twice => (others _ twice).1 rfl, nodup⟩, known, fun v mem => (others v mem).2⟩
      · rintro ⟨⟨once, nodup⟩, known, others⟩
        exact ⟨known, nodup, fun v mem => ⟨fun same => once (same ▸ mem), others v mem⟩⟩

theorem mem_readings {r : Router} {deviceName : String} {reading : Option Cidr} :
    reading ∈ r.readings deviceName ↔
      ∃ family, ∃ o ∈ r.reported deviceName family, addressOf o = reading := by
  rw [Router.readings, List.mem_map]
  constructor
  · rintro ⟨o, mem, read⟩
    exact (List.mem_append.mp mem).elim (fun mem => ⟨.v4, o, mem, read⟩)
      fun mem => ⟨.v6, o, mem, read⟩
  · rintro ⟨family, o, mem, read⟩
    cases family with
    | v4 => exact ⟨o, List.mem_append_left _ mem, read⟩
    | v6 => exact ⟨o, List.mem_append_right _ mem, read⟩

/-- The router has the addresses in addition. -/
structure Gains (r r' : Router) (deviceName : String) (cidrs : List Cidr) : Prop where
  wireguard : r'.wireguard = r.wireguard
  readings : ∀ reading, reading ∈ r'.readings deviceName ↔
    reading ∈ r.readings deviceName ∨ ∃ c ∈ cidrs, reading = some c

theorem create_address (fw : Firmware) (r : Router) (deviceName : String) (c : Cidr) :
    ∃ o r', r.create fw (.ofList
        [("address", .string (cidrText c)), ("interface", .string deviceName)])
          (.address c.addr.family) = .ok (o, r') ∧ Gains r r' deviceName [c] := by
  let payload : GenericJsonObject := .ofList
    [("address", .string (cidrText c)), ("interface", .string deviceName)]
  let o := Router.created fw (r.addresses c.addr.family) payload Router.addressDefaults
  obtain ⟨t, inserted, rows⟩ :=
    Router.insert_created fw (r.addresses c.addr.family) payload Router.addressDefaults
  refine ⟨o, { r with addresses := Function.update r.addresses c.addr.family t }, ?_, rfl, ?_⟩
  · simp only [Router.create]
    rw [inserted]
  · have meets : Router.meets (addressFilters deviceName) o = true := by
      have named : o.getString "interface" = deviceName := rfl
      have dynamic : o.getString "dynamic" = "false" := rfl
      have disabled : o.getString "disabled" = "false" := rfl
      simp [Router.meets, addressFilters, named, dynamic, disabled]
    have read : addressOf (Router.project [".id", "address", "network"] o) = some c :=
      cidrFromString_text c
    have reported : ∀ family,
        Router.reported { r with addresses := Function.update r.addresses c.addr.family t }
          deviceName family = r.reported deviceName family ++
            if family = c.addr.family then [Router.project [".id", "address", "network"] o]
            else [] := by
      intro family
      by_cases here : family = c.addr.family
      · subst here
        rw [Router.reported, if_pos rfl]
        simp only [Function.update_self]
        rw [rows, List.filter_append, List.filter_cons_of_pos meets, List.map_append]
        rfl
      · rw [Router.reported, if_neg here, List.append_nil]
        simp only [Function.update_of_ne here]
        rfl
    intro reading
    simp only [mem_readings, reported, List.mem_append]
    constructor
    · rintro ⟨family, o', mem | mem, rfl⟩
      · exact .inl ⟨family, o', mem, rfl⟩
      · split at mem
        · rw [List.mem_singleton.mp mem, read]
          exact .inr ⟨c, List.mem_singleton_self c, rfl⟩
        · cases mem
    · rintro (⟨family, o', mem, rfl⟩ | ⟨c', mem, rfl⟩)
      · exact ⟨family, o', .inl mem, rfl⟩
      · rw [List.mem_singleton.mp mem]
        exact ⟨c.addr.family, _, .inr (if_pos rfl ▸ List.mem_singleton_self _), read⟩

variable (fw i circumstances n w) in
theorem completes_createNew (deviceName : String) (new : List Cidr) :
    ∃ r', Gains w.router r' deviceName new ∧
      Completes fw i circumstances (createNew deviceName new) n w new.length True ()
        { w with router := r' } := by
  induction new generalizing n w with
  | nil => exact ⟨w.router, ⟨rfl, by simp⟩, completes_return⟩
  | cons c new ih =>
    obtain ⟨o, r, created, first⟩ := create_address fw w.router deviceName c
    obtain ⟨r', others, rest⟩ := ih (n + 1) { w with router := r }
    refine ⟨r', ⟨others.wireguard.trans first.wireguard, fun reading => ?_⟩, ?_⟩
    · rw [others.readings, first.readings]
      simp [or_assoc]
    · rw [List.length_cons, Nat.add_comm]
      exact Completes.congr (Completes.bind (completes_create created) (fun err => ⟨_, rfl⟩) rest)
        rfl and_self_iff

theorem mem_reported_without {family family' : Family} {id deviceName : String}
    {o : GenericJsonObject} :
    o ∈ (w.without family id).router.reported deviceName family' ↔
      o ∈ w.router.reported deviceName family' ∧ (family', idOf o) ≠ (family, id) := by
  have kept : ∀ row, idOf (Router.project [".id", "address", "network"] row) = idOf row :=
    fun row => rfl
  simp only [Router.reported, World.without]
  by_cases here : family' = family
  · subst here
    simp only [Function.update_self, Table.filter, List.mem_map, List.mem_filter, ne_eq,
      Prod.mk.injEq, true_and, decide_not, Bool.not_eq_true', decide_eq_false_iff_not]
    constructor
    · rintro ⟨row, ⟨⟨listed, other⟩, shown⟩, rfl⟩
      exact ⟨⟨row, ⟨listed, shown⟩, rfl⟩, other⟩
    · rintro ⟨⟨row, ⟨listed, shown⟩, rfl⟩, other⟩
      exact ⟨row, ⟨⟨listed, other⟩, shown⟩, rfl⟩
  · simp [here]

theorem mem_reported_withoutAll {vs : List (Family × String)} {family : Family}
    {deviceName : String} {o : GenericJsonObject} :
    o ∈ (w.withoutAll vs).router.reported deviceName family ↔
      o ∈ w.router.reported deviceName family ∧ (family, idOf o) ∉ vs := by
  induction vs generalizing w with
  | nil => simp [World.withoutAll]
  | cons v vs ih =>
    rw [World.withoutAll, List.foldl_cons]
    refine ih.trans ?_
    rw [mem_reported_without, List.mem_cons, not_or, and_assoc]

theorem withoutAll_frame (vs : List (Family × String)) :
    (w.withoutAll vs).router.wireguard = w.router.wireguard ∧
      (w.withoutAll vs).updates = w.updates := by
  induction vs generalizing w with
  | nil => exact ⟨rfl, rfl⟩
  | cons v vs ih => exact ih

end Loops

end WgPortal.WgController.Mikrotik
