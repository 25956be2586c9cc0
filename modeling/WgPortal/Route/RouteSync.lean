import Mathlib.Data.List.Count
import WgPortal.Route.Routes

/-! The routes of an interface after the route manager has brought them in line with the allowed
IPs, which are compared with the destinations that the kernel has made of them. -/

namespace WgPortal.Route.Routes

open Domain Library Library.NetIP Library.Net Program

section Destinations

variable (d : Destination)

theorem Destination.of_net : Destination.of d.net = d := by
  cases d with
  | mk net masked => simp only [Destination.of, masked]

/-- The only destination without any bits is that of the default route. -/
theorem Destination.eq_default (whole : d.net.bits = 0) :
    d.net = defaultCidr d.net.addr.family := by
  have host : d.net.hostBits = d.net.addr.family.bitLen := by
    rw [Prefix.hostBits, whole, Nat.sub_zero]
  have value : d.net.addr.value / 2 ^ d.net.hostBits * 2 ^ d.net.hostBits = d.net.addr.value :=
    congrArg (fun p => p.addr.value) d.masked
  rw [host, Nat.div_eq_of_lt d.net.addr.lt, Nat.zero_mul] at value
  exact Prefix.ext (Addr.ext rfl value.symm) whole

/-- The destination of a listed route, where the default route has got one -/
def filled : IPNet :=
  if d.net.bits = 0 then Cidr.ipNet (defaultCidr d.net.addr.family) else shortNet d.net

theorem fromIpNet_filled : Cidr.fromIpNet (filled d) = some (unmapped d.net) := by
  unfold filled
  split
  · rename_i whole
    rw [← d.eq_default whole, Cidr.fromIpNet_ipNet]
  · exact Cidr.fromIpNet_shortNet d.net

theorem prefixOf_filled : prefixOf (filled d) = some d.net := by
  unfold filled
  split
  · rename_i whole
    rw [← d.eq_default whole]
    exact prefixOf_ofPrefix d.net
  · exact prefixOf_shortNet d.net

end Destinations

theorem report_dst (r : NetlinkRoute Destination) :
    (report r).dst.getD (Cidr.ipNet (defaultCidr r.dst.net.addr.family)) = filled r.dst := by
  unfold report filled
  simp only [NetlinkRoute.withDst]
  split <;> rfl

variable {kernel : Kernel} {faulty : Bool}

/-- An operation that works, or fails and changes nothing. -/
def Step (kernel : Kernel) (faulty : Bool) (op : RouteOp) (rs : Table) (answer : op.Res)
    (rs' : Table) : Prop :=
  ∃ fault, (faulty = false → fault = none) ∧ op.exec kernel fault rs = (answer, rs')

theorem run_of_always {α : Type} {prog : RouteProgram α} {rs : Table}
    {post : α → Table → Prop} {faults : ℕ → Option Error}
    (reliable : faulty = false → ∀ n, faults n = none)
    (always : prog.Always (Step kernel faulty) rs post) :
    post (prog.run kernel faults rs).1 (prog.run kernel faults rs).2 := by
  have start : prog.Always (Step kernel faulty) (Prod.snd (0, rs)) post := always
  have steps : ∀ op (s : ℕ × Table), Step kernel faulty op s.2 (inTurn kernel faults op s).1
      (inTurn kernel faults op s).2.2 :=
    fun op s => ⟨faults s.1, fun sure => reliable sure s.1, rfl⟩
  exact start.eval steps

theorem faulty_of_fault {err : Error} (reliable : faulty = false → some err = none) :
    faulty = true := by
  cases faulty with
  | true => rfl
  | false => cases reliable rfl

theorem Step.list {family : NetIP.Family} {filter : RawRoute} {rs rs' : Table}
    {answer : Except Error (List RawRoute)}
    (step : Step kernel faulty (.routeListFiltered family filter) rs answer rs') : rs' = rs ∧
      ((faulty = true ∧ ∃ err, answer = .error err) ∨
        answer = .ok ((rs.filter (listed family filter)).map report)) := by
  obtain ⟨fault, reliable, ran⟩ := step
  obtain ⟨rfl, rfl⟩ := Prod.mk.inj ran
  refine ⟨rfl, ?_⟩
  cases fault with
  | none => exact .inr rfl
  | some err =>
    exact .inl ⟨faulty_of_fault reliable, err, rfl⟩

theorem Step.replace {route : RawRoute} {p : Prefix} (about : target route = some p)
    {rs rs' : Table} {answer : Except Error Unit}
    (step : Step kernel faulty (.routeReplace route) rs answer rs') :
    ((faulty = true ∨ kernel.accepts p = false) ∧ ∃ err, answer = .error err) ∨
      answer = .ok () ∧ kernel.accepts p = true ∧
        rs' = kernel.replace (route.withDst (Destination.of p)) rs := by
  obtain ⟨fault, reliable, ran⟩ := step
  cases fault with
  | none =>
    simp only [RouteOp.exec, about] at ran
    split at ran
    · rename_i taken
      obtain ⟨rfl, rfl⟩ := Prod.mk.inj ran
      exact .inr ⟨rfl, taken, rfl⟩
    · rename_i refused
      exact .inl ⟨.inr (Bool.eq_false_iff.mpr refused), _, (Prod.mk.inj ran).1.symm⟩
  | some err =>
    simp only [RouteOp.exec] at ran
    exact .inl ⟨.inl (faulty_of_fault reliable), err, (Prod.mk.inj ran).1.symm⟩

theorem Step.del {route : RawRoute} {p : Prefix} (about : target route = some p) {rs rs' : Table}
    {answer : Except Error Unit} (step : Step kernel faulty (.routeDel route) rs answer rs') :
    (faulty = true ∧ ∃ err, answer = .error err) ∨
      answer = .ok () ∧ rs' = rs.erase (route.withDst (Destination.of p)) := by
  obtain ⟨fault, reliable, ran⟩ := step
  cases fault with
  | none =>
    simp only [RouteOp.exec, about] at ran
    obtain ⟨rfl, rfl⟩ := Prod.mk.inj ran
    exact .inr ⟨rfl, rfl⟩
  | some err =>
    simp only [RouteOp.exec] at ran
    exact .inl ⟨faulty_of_fault reliable, err, (Prod.mk.inj ran).1.symm⟩

/-- The interface has a route to the destination in its table. -/
def Holds (link table : Int) (rs : Table) (d : Destination) : Prop :=
  ∃ r ∈ rs, r.linkIndex = link ∧ r.table = table ∧ r.type = rtnUnicast ∧ r.dst = d

variable {link table : Int} {allowedIPs : List Cidr}

/-- A route to one more destination, and all others as they were -/
theorem holds_replace {r : NetlinkRoute Destination} (own : r.linkIndex = link)
    (inTable : r.table = table) (unicast : r.type = rtnUnicast) {rs : Table} {d : Destination} :
    Holds link table (kernel.replace r rs) d ↔ Holds link table rs d ∨ r.dst = d := by
  constructor
  · rintro ⟨x, listed, link', table', type', rfl⟩
    rcases kernel.mem_replace r rs x listed with old | ⟨others, rfl⟩
    · exact .inl ⟨x, old, link', table', type', rfl⟩
    · exact .inr rfl
  · obtain ⟨others, added⟩ := kernel.replace_adds r rs
    have new : Holds link table (kernel.replace r rs) r.dst :=
      ⟨_, added, own, inTable, unicast, rfl⟩
    rintro (⟨x, listed, link', table', type', rfl⟩ | rfl)
    · rcases kernel.replace_keeps r rs x listed with kept | ⟨dst, _⟩
      · exact ⟨x, kept, link', table', type', rfl⟩
      · rw [dst]
        exact new
    · exact new

/-- After the routes are set, there are those to the allowed networks, and the earlier ones. -/
theorem always_setInterfaceRoutes (link table : Int) (allowedIPs : List Cidr) (rs : Table) :
    (setInterfaceRoutes link table allowedIPs).Always (Step kernel faulty) rs fun result rs' =>
      (result = .ok () → (∀ c ∈ allowedIPs, kernel.accepts c = true) ∧
        ∀ d, Holds link table rs' d ↔
          Holds link table rs d ∨ ∃ c ∈ allowedIPs, Destination.of c = d) ∧
      (faulty = false → (∀ c ∈ allowedIPs, kernel.accepts c = true) → result = .ok ()) := by
  induction allowedIPs generalizing rs with
  | nil => exact ⟨fun _ => ⟨by simp, fun d => by simp⟩, fun _ _ => rfl⟩
  | cons c allowedIPs ih =>
    intro answer rs₁ step
    have about : target ⟨link, some (Cidr.ipNet c), table, rtScopeLink, rtnUnicast, rtprotStatic,
        []⟩ = some c := prefixOf_ofPrefix c
    rcases step.replace about with ⟨failed, err, rfl⟩ | ⟨rfl, taken, rfl⟩
    · refine ⟨fun ok => (by cases ok), fun sure all => ?_⟩
      rcases failed with unsure | refused
      · rw [sure] at unsure
        cases unsure
      · rw [all c List.mem_cons_self] at refused
        cases refused
    · refine (ih _).mono fun result rs' routes => ⟨fun ok => ?_, fun sure all => ?_⟩
      · obtain ⟨accepted, holds⟩ := routes.1 ok
        refine ⟨List.forall_mem_cons.mpr ⟨taken, accepted⟩, fun d => ?_⟩
        have first : ∀ d, Holds link table (kernel.replace _ rs) d ↔ _ :=
          fun d => holds_replace (r := ⟨link, Destination.of c, table, rtScopeLink, rtnUnicast,
            rtprotStatic, []⟩) rfl rfl rfl
        rw [holds d]
        refine (or_congr_left (first d)).trans ?_
        rw [or_assoc, List.exists_mem_cons_iff]
      · exact routes.2 sure fun c' listed => all c' (List.mem_cons_of_mem _ listed)

/-- The destination is not read as one of the allowed networks. -/
def deprecated (allowedIPs : List Cidr) (r : NetlinkRoute Destination) : Bool :=
  unmapped r.dst.net ∉ allowedIPs

theorem any_allowed_iff (r : NetlinkRoute Destination) :
    (allowedIPs.any fun c => some (unmapped r.dst.net) = some c) = true ↔
      deprecated allowedIPs r = false := by
  simp [deprecated]

/-- The listed routes that are deprecated are deleted, one by one. -/
theorem always_deleteDeprecated {family : NetIP.Family} {routes : Table}
    (ofFamily : ∀ r ∈ routes, r.dst.net.addr.family = family) (rs : Table) :
    (deleteDeprecated family allowedIPs (routes.map report)).Always (Step kernel faulty) rs
      fun result rs' => (result = .ok () → rs' = rs.diff (routes.filter (deprecated allowedIPs))) ∧
        (faulty = false → result = .ok ()) := by
  induction routes generalizing rs with
  | nil => exact ⟨fun _ => (List.diff_nil rs).symm, fun _ => rfl⟩
  | cons r routes ih =>
    obtain ⟨first, rest⟩ := List.forall_mem_cons.mp ofFamily
    have dst : (report r).dst.getD (Cidr.ipNet (defaultCidr family)) = filled r.dst := by
      rw [← first, report_dst]
    rw [List.map_cons, deleteDeprecated]
    simp only [dst, fromIpNet_filled]
    split
    · rename_i allowed
      have kept : ¬ deprecated allowedIPs r = true :=
        Bool.eq_false_iff.mp ((any_allowed_iff r).mp allowed)
      rw [List.filter_cons_of_neg kept]
      exact ih rest rs
    · rename_i foreign
      have removed : deprecated allowedIPs r = true := by
        cases known : deprecated allowedIPs r with
        | true => rfl
        | false => exact absurd ((any_allowed_iff r).mpr known) foreign
      intro answer rs₁ step
      have about : target ((report r).withDst
          (some ((report r).dst.getD (Cidr.ipNet (defaultCidr family))))) = some r.dst.net := by
        rw [dst]
        exact prefixOf_filled r.dst
      have same : ∀ dst : Option IPNet, ((report r).withDst dst).withDst
          (Destination.of r.dst.net) = r := by
        intro _
        rw [Destination.of_net]
        rfl
      rcases step.del about with ⟨unsure, err, rfl⟩ | ⟨rfl, rfl⟩
      · refine ⟨fun ok => (by cases ok), fun sure => ?_⟩
        rw [sure] at unsure
        cases unsure
      · rw [same]
        refine (ih rest (rs.erase r)).mono fun result rs' routes => ⟨fun ok => ?_, routes.2⟩
        rw [routes.1 ok, List.filter_cons_of_pos removed, List.diff_cons]

/-- What is left of a list when all entries of a kind are taken out of it. -/
theorem mem_diff_filter {routes : Table} {P : NetlinkRoute Destination → Bool}
    {r : NetlinkRoute Destination} :
    r ∈ routes.diff (routes.filter P) ↔ r ∈ routes ∧ P r = false := by
  rw [← List.count_pos_iff, List.count_diff, ← List.count_pos_iff]
  cases chosen : P r with
  | true =>
    rw [List.count_filter chosen, Nat.sub_self]
    simp
  | false =>
    have none : (routes.filter P).count r = 0 := by
      refine List.count_eq_zero.mpr fun listed => ?_
      rw [(List.mem_filter.mp listed).2] at chosen
      cases chosen
    rw [none]
    simp

/-- Of the routes of one family, the deprecated ones are gone, and no others. -/
theorem always_removeDeprecatedRoutes (link table : Int) (family : NetIP.Family)
    (allowedIPs : List Cidr) (rs : Table) :
    (removeDeprecatedRoutes link family allowedIPs table).Always (Step kernel faulty) rs
      fun result rs' => (result = .ok () → ∀ d, Holds link table rs' d ↔
          Holds link table rs d ∧ (d.net.addr.family = family → unmapped d.net ∈ allowedIPs)) ∧
        (faulty = false → result = .ok ()) := by
  intro answer rs₁ step
  obtain ⟨rfl, ⟨unsure, err, rfl⟩ | rfl⟩ := step.list
  · refine ⟨fun ok => (by cases ok), fun sure => ?_⟩
    rw [sure] at unsure
    cases unsure
  · have ofFamily : ∀ r ∈ rs₁.filter (listed family ⟨link, none, table, rtScopeLink, rtnUnicast, 0,
        []⟩), r.dst.net.addr.family = family := by
      intro r selected
      exact (of_decide_eq_true (List.mem_filter.mp selected).2).1
    refine (always_deleteDeprecated ofFamily rs₁).mono fun result rs' routes => ?_
    refine ⟨fun ok d => ?_, routes.2⟩
    rw [routes.1 ok, List.filter_filter]
    constructor
    · rintro ⟨r, kept, own, inTable, unicast, rfl⟩
      obtain ⟨old, stays⟩ := mem_diff_filter.mp kept
      refine ⟨⟨r, old, own, inTable, unicast, rfl⟩, fun same => ?_⟩
      by_contra foreign
      simp [listed, deprecated, own, inTable, unicast, same, foreign] at stays
    · rintro ⟨⟨r, old, own, inTable, unicast, rfl⟩, wanted⟩
      refine ⟨r, mem_diff_filter.mpr ⟨old, ?_⟩, own, inTable, unicast, rfl⟩
      refine Bool.eq_false_iff.mpr fun selected => ?_
      obtain ⟨foreign, seen⟩ := Bool.and_eq_true_iff.mp selected
      have same : r.dst.net.addr.family = family := (of_decide_eq_true seen).1
      exact of_decide_eq_true foreign (wanted same)

/-- After the routes of both families are synchronized, there are those whose destinations are
read as allowed networks. -/
theorem always_syncInterfaceRoutes (iface : InterfaceIdentifier) (link table : Int)
    (allowedIPs : List Cidr) (rs : Table) :
    (syncInterfaceRoutes iface link table allowedIPs).Always (Step kernel faulty) rs
      fun result rs' =>
        (result = .ok () → (∀ c ∈ allowedIPs, kernel.accepts c = true) ∧
          ∀ d, Holds link table rs' d ↔
            (Holds link table rs d ∨ ∃ c ∈ allowedIPs, Destination.of c = d) ∧
              unmapped d.net ∈ allowedIPs) ∧
        (faulty = false → (∀ c ∈ allowedIPs, kernel.accepts c = true) → result = .ok ()) := by
  refine (always_setInterfaceRoutes link table allowedIPs rs).bind fun set rs₁ added => ?_
  cases set with
  | error err =>
    refine ⟨fun ok => (by cases ok), fun sure all => ?_⟩
    cases added.2 sure all
  | ok _ =>
    obtain ⟨accepted, holds⟩ := added.1 rfl
    refine (always_removeDeprecatedRoutes link table .v4 allowedIPs rs₁).bind
      fun v4 rs₂ removed => ?_
    cases v4 with
    | error err =>
      refine ⟨fun ok => (by cases ok), fun sure _ => ?_⟩
      cases removed.2 sure
    | ok _ =>
      refine (always_removeDeprecatedRoutes link table .v6 allowedIPs rs₂).bind
        fun v6 rs₃ removed' => ?_
      cases v6 with
      | error err =>
        refine ⟨fun ok => (by cases ok), fun sure _ => ?_⟩
        cases removed'.2 sure
      | ok _ =>
        refine ⟨fun _ => ⟨accepted, fun d => ?_⟩, fun _ _ => rfl⟩
        rw [removed'.1 rfl d, removed.1 rfl d, holds d]
        cases d.net.addr.family <;> simp

/-- If the synchronization succeeds, the interface has the routes to the allowed networks in its
table, and no others, whichever operations may fail. -/
def KeepsWanted (kernel : Kernel) (iface : InterfaceIdentifier) (link table : Int)
    (allowedIPs : List Cidr) (rs : Table) : Prop :=
  ∀ faults, ((syncInterfaceRoutes iface link table allowedIPs).run kernel faults rs).1 = .ok () →
    ∀ d, Holds link table
        ((syncInterfaceRoutes iface link table allowedIPs).run kernel faults rs).2 d ↔
      ∃ c ∈ allowedIPs, Destination.of c = d

/-- Every allowed network is listed without host bits as well, as it is read back. Networks that
are only read as allowed ones have no routes yet. -/
structure ListsNetworks (link table : Int) (allowedIPs : List Cidr) (rs : Table) : Prop where
  networks : ∀ c ∈ allowedIPs, unmapped (Destination.of c).net ∈ allowedIPs
  mapped : ∀ d, Holds link table rs d → Mapped d.net.addr → unmapped d.net ∈ allowedIPs →
    ∃ c ∈ allowedIPs, Destination.of c = d

/-- The wanted routes are deleted again unless the kernel's form of them is allowed. -/
theorem keepsWanted_iff (kernel : Kernel) (iface : InterfaceIdentifier) (link table : Int)
    (allowedIPs : List Cidr) (rs : Table) : KeepsWanted kernel iface link table allowedIPs rs ↔
      (∃ c ∈ allowedIPs, kernel.accepts c = false) ∨ ListsNetworks link table allowedIPs rs := by
  constructor
  · intro keeps
    by_cases refused : ∃ c ∈ allowedIPs, kernel.accepts c = false
    · exact .inl refused
    · have accepted : ∀ c ∈ allowedIPs, kernel.accepts c = true := by
        intro c listed
        cases taken : kernel.accepts c with
        | true => rfl
        | false => exact absurd ⟨c, listed, taken⟩ refused
      -- a run in which nothing fails
      have ran := @run_of_always kernel false _ _ rs _ (fun _ => none) (fun _ _ => rfl)
        (always_syncInterfaceRoutes iface link table allowedIPs rs)
      have ok := ran.2 rfl accepted
      have left := (ran.1 ok).2
      have wanted := keeps _ ok
      refine .inr ⟨fun c listed => ?_, fun d held _ read => ?_⟩
      · exact ((left _).mp ((wanted _).mpr ⟨c, listed, rfl⟩)).2
      · exact (wanted d).mp ((left d).mpr ⟨.inl held, read⟩)
  · intro condition faults ok d
    have ran := @run_of_always kernel true _ _ rs _ faults (fun sure => by cases sure)
      (always_syncInterfaceRoutes iface link table allowedIPs rs)
    obtain ⟨accepted, left⟩ := ran.1 ok
    rcases condition with ⟨c, listed, refused⟩ | lists
    · rw [accepted c listed] at refused
      cases refused
    · rw [left d]
      constructor
      · rintro ⟨held | wanted, read⟩
        · by_cases mapped : Mapped d.net.addr
          · exact lists.mapped d held mapped read
          · rw [unmapped, if_neg mapped] at read
            exact ⟨d.net, read, d.of_net⟩
        · exact wanted
      · rintro ⟨c, listed, rfl⟩
        exact ⟨.inr ⟨c, listed, rfl⟩, lists.networks c listed⟩

/-- A kernel that refuses destinations of IPv4 with host bits, and drops those of IPv6. -/
def linux : Kernel where
  accepts p := p.addr.family = .v6 || p.masked = p
  replace r rs := r :: rs.filter fun x => ¬ (x.dst = r.dst ∧ x.table = r.table)
  mem_replace r rs x listed := by
    rcases List.mem_cons.mp listed with rfl | old
    · exact .inr ⟨x.others, rfl⟩
    · exact .inl (List.mem_filter.mp old).1
  replace_adds r _ := ⟨r.others, List.mem_cons_self⟩
  replace_keeps r rs x listed := by
    by_cases replaced : x.dst = r.dst ∧ x.table = r.table
    · exact .inr replaced
    · exact .inl (List.mem_cons_of_mem _ (List.mem_filter.mpr ⟨listed, decide_eq_true replaced⟩))

theorem sampleHost_lt : 0xfd000000000000000000000000000005 < 2 ^ NetIP.Family.v6.bitLen := by decide

theorem sampleHost_le : 64 ≤ NetIP.Family.v6.bitLen := by decide

/-- `fd00::5/64` -/
def sampleHost : Cidr :=
  ⟨⟨.v6, 0xfd000000000000000000000000000005, sampleHost_lt⟩, 64, sampleHost_le⟩

/-- Its route is added for `fd00::/64`, which is none of the allowed networks. -/
theorem sampleHost_deleted : ¬ KeepsWanted linux "wg0" 7 51820 [sampleHost] [] := by
  intro keeps
  have ran := @run_of_always linux false _ _ [] _ (fun _ => none) (fun _ _ => rfl)
    (always_syncInterfaceRoutes "wg0" 7 51820 [sampleHost] [])
  have ok := ran.2 rfl (by decide)
  have held := (keeps _ ok (Destination.of sampleHost)).mpr ⟨_, List.mem_cons_self, rfl⟩
  exact absurd (((ran.1 ok).2 _).mp held).2 (by decide)

end WgPortal.Route.Routes
