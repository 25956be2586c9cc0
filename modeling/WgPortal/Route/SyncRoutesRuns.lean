import WgPortal.Route.RouteSync
import WgPortal.Route.RuleSync
import WgPortal.Route.SyncRoutes

/-! What a synchronization of the routes and rules of all interfaces leaves, when any operation
may fail. -/

namespace WgPortal.Route.Routes

open Domain Library Program
open Library.Net (unmapped)

/-- The routes that came and went are of these kinds. -/
structure Changed (Comes Goes : NetlinkRoute Destination → Prop) (before after : Table) : Prop where
  comes : ∀ r ∈ after, r ∈ before ∨ Comes r
  goes : ∀ r ∈ before, r ∈ after ∨ Goes r

namespace Changed

variable {Comes Goes Comes' Goes' : NetlinkRoute Destination → Prop} {before mid after : Table}

theorem refl (Comes Goes : NetlinkRoute Destination → Prop) (rs : Table) :
    Changed Comes Goes rs rs := ⟨fun _ mem => .inl mem, fun _ mem => .inl mem⟩

theorem trans (first : Changed Comes Goes before mid) (second : Changed Comes Goes mid after) :
    Changed Comes Goes before after where
  comes r mem := (second.comes r mem).elim (first.comes r) .inr
  goes r mem := (first.goes r mem).elim (second.goes r) .inr

theorem mono (changed : Changed Comes Goes before after) (comes : ∀ r, Comes r → Comes' r)
    (goes : ∀ r, Goes r → Goes' r) : Changed Comes' Goes' before after where
  comes r mem := (changed.comes r mem).imp_right (comes r)
  goes r mem := (changed.goes r mem).imp_right (goes r)

end Changed

variable {kernel : Kernel} {faulty : Bool} {link table : Int} {allowedIPs : List Cidr}

theorem Step.replace_frame {route : RawRoute} {p : NetIP.Prefix} (about : target route = some p)
    {rs rs' : Table} {answer : Except Error Unit}
    (step : Step kernel faulty (.routeReplace route) rs answer rs') :
    rs' = rs ∨ rs' = kernel.replace (route.withDst (Destination.of p)) rs := by
  obtain ⟨fault, -, ran⟩ := step
  cases fault with
  | some err => exact .inl (Prod.mk.inj ran).2.symm
  | none =>
    simp only [RouteOp.exec, about] at ran
    split at ran
    · exact .inr (Prod.mk.inj ran).2.symm
    · exact .inl (Prod.mk.inj ran).2.symm

theorem Step.del_frame {route : RawRoute} {p : NetIP.Prefix} (about : target route = some p)
    {rs rs' : Table} {answer : Except Error Unit}
    (step : Step kernel faulty (.routeDel route) rs answer rs') :
    rs' = rs ∨ rs' = rs.erase (route.withDst (Destination.of p)) := by
  obtain ⟨fault, -, ran⟩ := step
  cases fault with
  | some err => exact .inl (Prod.mk.inj ran).2.symm
  | none =>
    simp only [RouteOp.exec, about] at ran
    exact .inr (Prod.mk.inj ran).2.symm

/-- The destination is one of the allowed networks without its host bits. -/
def Wanted (allowedIPs : List Cidr) (d : Destination) : Prop :=
  ∃ c ∈ allowedIPs, Destination.of c = d

/-- A route of the interface to an allowed network -/
def Comes (link table : Int) (allowedIPs : List Cidr) (r : NetlinkRoute Destination) : Prop :=
  r.linkIndex = link ∧ r.table = table ∧ Wanted allowedIPs r.dst

/-- A route in whose place another one comes, or of the interface and deprecated -/
def Goes (link table : Int) (allowedIPs : List Cidr) (r : NetlinkRoute Destination) : Prop :=
  r.table = table ∧
    (Wanted allowedIPs r.dst ∨
      r.linkIndex = link ∧ r.type = rtnUnicast ∧ unmapped r.dst.net ∉ allowedIPs)

/-- What the synchronization of the interface may do, also if it fails: no route is lost that is
read as an allowed one. -/
structure Effect (link table : Int) (allowedIPs : List Cidr) (before after : Table) : Prop where
  changed : Changed (Comes link table allowedIPs) (Goes link table allowedIPs) before after
  keeps : ∀ d, unmapped d.net ∈ allowedIPs → Holds link table before d → Holds link table after d

theorem Effect.refl (link table : Int) (allowedIPs : List Cidr) (rs : Table) :
    Effect link table allowedIPs rs rs := ⟨.refl _ _ rs, fun _ _ held => held⟩

theorem Effect.trans {before mid after : Table} (first : Effect link table allowedIPs before mid)
    (second : Effect link table allowedIPs mid after) : Effect link table allowedIPs before after :=
  ⟨first.changed.trans second.changed,
    fun d allowed held => second.keeps d allowed (first.keeps d allowed held)⟩

theorem effect_setInterfaceRoutes {wanted : List Cidr} (among : ∀ c ∈ wanted, c ∈ allowedIPs)
    (rs : Table) :
    (setInterfaceRoutes link table wanted).Always (Step kernel faulty) rs fun _ rs' =>
      Effect link table allowedIPs rs rs' := by
  induction wanted generalizing rs with
  | nil => exact .refl _ _ _ rs
  | cons c wanted ih =>
    obtain ⟨first, rest⟩ := List.forall_mem_cons.mp among
    intro answer rs₁ step
    have about : target ⟨link, some (Cidr.ipNet c), table, rtScopeLink, rtnUnicast, rtprotStatic,
        []⟩ = some c := Net.prefixOf_ofPrefix c
    have one : Effect link table allowedIPs rs rs₁ := by
      rcases step.replace_frame about with rfl | rfl
      · exact .refl _ _ _ rs₁
      · refine ⟨⟨fun r mem => ?_, fun r mem => ?_⟩, fun d _ held => ?_⟩
        · rcases kernel.mem_replace _ _ r mem with old | ⟨others, rfl⟩
          · exact .inl old
          · exact .inr ⟨rfl, rfl, c, first, rfl⟩
        · rcases kernel.replace_keeps _ _ r mem with kept | ⟨dst, same⟩
          · exact .inl kept
          · exact .inr ⟨same, .inl ⟨c, first, dst.symm⟩⟩
        · exact (holds_replace rfl rfl rfl).mpr (.inl held)
    cases answer with
    | error err => exact one
    | ok _ => exact (ih rest rs₁).mono fun _ rs' more => one.trans more

/-- Only the listed routes that are deprecated are deleted. -/
theorem effect_deleteDeprecated {family : NetIP.Family} {routes : Table}
    (own : ∀ r ∈ routes, r.dst.net.addr.family = family ∧ r.linkIndex = link ∧ r.table = table ∧
      r.type = rtnUnicast) (rs : Table) :
    (deleteDeprecated family allowedIPs (routes.map report)).Always (Step kernel faulty) rs
      fun _ rs' => Effect link table allowedIPs rs rs' := by
  induction routes generalizing rs with
  | nil => exact .refl _ _ _ rs
  | cons r routes ih =>
    obtain ⟨⟨same, ofLink, inTable, unicast⟩, rest⟩ := List.forall_mem_cons.mp own
    have dst : (report r).dst.getD (Cidr.ipNet (defaultCidr family)) = filled r.dst := by
      rw [← same, report_dst]
    rw [List.map_cons, deleteDeprecated]
    simp only [dst, fromIpNet_filled]
    split
    · exact ih rest rs
    · rename_i foreign
      intro answer rs₁ step
      rw [dst] at step
      have about : target ((report r).withDst (some (filled r.dst))) = some r.dst.net :=
        prefixOf_filled r.dst
      have deleted : ((report r).withDst (some (filled r.dst))).withDst
          (Destination.of r.dst.net) = r := by
        rw [Destination.of_net]
        rfl
      have missing : unmapped r.dst.net ∉ allowedIPs := fun allowed =>
        foreign ((any_allowed_iff r).mpr (decide_eq_false (not_not_intro allowed)))
      have one : Effect link table allowedIPs rs rs₁ := by
        rcases step.del_frame about with rfl | rfl
        · exact .refl _ _ _ rs₁
        · rw [deleted]
          refine ⟨⟨fun x mem => .inl (List.mem_of_mem_erase mem), fun x mem => ?_⟩, ?_⟩
          · by_cases gone : x = r
            · rw [gone]
              exact .inr ⟨inTable, .inr ⟨ofLink, unicast, missing⟩⟩
            · exact .inl ((List.mem_erase_of_ne gone).mpr mem)
          · rintro d allowed ⟨x, mem, facts⟩
            have other : x ≠ r := fun gone => missing (by rw [← gone, facts.2.2.2]; exact allowed)
            exact ⟨x, (List.mem_erase_of_ne other).mpr mem, facts⟩
      cases answer with
      | error err => exact one
      | ok _ => exact (ih rest rs₁).mono fun _ rs' more => one.trans more

theorem effect_removeDeprecatedRoutes (family : NetIP.Family) (rs : Table) :
    (removeDeprecatedRoutes link family allowedIPs table).Always (Step kernel faulty) rs
      fun _ rs' => Effect link table allowedIPs rs rs' := by
  intro answer rs₁ step
  obtain ⟨rfl, ⟨-, err, rfl⟩ | rfl⟩ := step.list
  · exact Effect.refl _ _ _ rs₁
  · refine effect_deleteDeprecated (fun r selected => ?_) rs₁
    obtain ⟨same, table, unicast, link⟩ := of_decide_eq_true (List.mem_filter.mp selected).2
    exact ⟨same, link, table, unicast⟩

theorem effect_syncInterfaceRoutes (iface : InterfaceIdentifier) (rs : Table) :
    (syncInterfaceRoutes iface link table allowedIPs).Always (Step kernel faulty) rs
      fun _ rs' => Effect link table allowedIPs rs rs' := by
  refine (effect_setInterfaceRoutes (fun _ mem => mem) rs).bind fun set rs₁ first => ?_
  cases set with
  | error err => exact first
  | ok _ =>
    refine (effect_removeDeprecatedRoutes .v4 rs₁).bind fun v4 rs₂ second => ?_
    have both := first.trans second
    cases v4 with
    | error err => exact both
    | ok _ =>
      refine (effect_removeDeprecatedRoutes .v6 rs₂).bind fun v6 rs₃ third => ?_
      cases v6 with
      | error err => exact both.trans third
      | ok _ => exact both.trans third

end WgPortal.Route.Routes

namespace WgPortal.Route.SyncRoutes

open Domain Library Program Adapters
open Library.Net (unmapped)
open Routes (Destination Wanted Comes Goes Changed Holds)
open SyncProgram (ofRoutes ofRules)

variable {node : Node} {m : Manager} {net net' : Network}

/-- An operation that works, or fails and changes nothing -/
def Step (node : Node) (op : SyncOp) (net : Network) (answer : op.Res) (net' : Network) : Prop :=
  ∃ fault, op.exec node fault net = (answer, net')

theorem run_of_always {α : Type} {prog : SyncProgram α} {post : α → Network → Prop}
    (faults : ℕ → Option Error) (always : prog.Always (Step node) net post) :
    post (prog.run node faults net).1 (prog.run node faults net).2 := by
  have start : prog.Always (Step node) (Prod.snd (0, net)) post := always
  have steps : ∀ op (s : ℕ × Network), Step node op s.2 (inTurn node faults op s).1
      (inTurn node faults op s).2.2 := fun op s => ⟨faults s.1, rfl⟩
  exact start.eval steps

theorem Step.interfaces {answer : Except Error (List Interface)}
    (step : Step node .getAllInterfaces net answer net') :
    net' = net ∧ ∀ interfaces, answer = .ok interfaces → interfaces = node.db.getAllInterfaces := by
  obtain ⟨fault, ran⟩ := step
  obtain ⟨rfl, rfl⟩ := Prod.mk.inj ran
  refine ⟨rfl, fun interfaces ok => ?_⟩
  cases fault with
  | some err => cases ok
  | none => exact (Except.ok.inj ok).symm

theorem Step.peers {id : InterfaceIdentifier} {answer : Except Error (List Peer)}
    (step : Step node (.getInterfacePeers id) net answer net') :
    net' = net ∧ ∀ peers, answer = .ok peers → peers = node.db.getInterfacePeers id := by
  obtain ⟨fault, ran⟩ := step
  obtain ⟨rfl, rfl⟩ := Prod.mk.inj ran
  refine ⟨rfl, fun peers ok => ?_⟩
  cases fault with
  | some err => cases ok
  | none => exact (Except.ok.inj ok).symm

theorem Step.link {name : InterfaceIdentifier} {answer : Except Error Int}
    (step : Step node (.linkByName name) net answer net') :
    net' = net ∧ ∀ link, answer = .ok link → node.links name = some link := by
  obtain ⟨fault, ran⟩ := step
  obtain ⟨rfl, rfl⟩ := Prod.mk.inj ran
  refine ⟨rfl, fun link ok => ?_⟩
  cases fault with
  | some err => cases ok
  | none =>
    cases found : node.links name with
    | none =>
      rw [found] at ok
      cases ok
    | some link' =>
      rw [found] at ok
      rw [Except.ok.inj ok]

theorem Step.configure {name : InterfaceIdentifier} {fwmark : ℕ} {answer : Except Error Unit}
    (step : Step node (.configureDevice name fwmark) net answer net') :
    (∃ err, answer = .error err) ∧ net' = net ∨
      answer = .ok () ∧ net' = { net with marks := Function.update net.marks name fwmark } := by
  obtain ⟨fault, ran⟩ := step
  cases fault with
  | some err =>
    obtain ⟨rfl, rfl⟩ := Prod.mk.inj ran
    exact .inl ⟨⟨err, rfl⟩, rfl⟩
  | none =>
    cases found : node.links name with
    | none =>
      simp only [SyncOp.exec, found] at ran
      obtain ⟨rfl, rfl⟩ := Prod.mk.inj ran
      exact .inl ⟨⟨_, rfl⟩, rfl⟩
    | some link =>
      simp only [SyncOp.exec, found] at ran
      obtain ⟨rfl, rfl⟩ := Prod.mk.inj ran
      exact .inr ⟨rfl, rfl⟩

theorem always_ofRoutes {α : Type} {prog : Routes.RouteProgram α} {post : α → Routes.Table → Prop}
    (always : prog.Always (Routes.Step node.routeKernel true) net.routes post) :
    (ofRoutes prog).Always (Step node) net fun a net' =>
      post a net'.routes ∧ net'.marks = net.marks ∧ net'.rules = net.rules := by
  have each : ∀ op (t : Network), t.marks = net.marks ∧ t.rules = net.rules →
      (SyncProgram.issue (.route op)).Always (Step node) t fun answer t' =>
        Routes.Step node.routeKernel true op t.routes answer t'.routes ∧
          t'.marks = net.marks ∧ t'.rules = net.rules := by
    intro op t same answer t' step
    obtain ⟨fault, ran⟩ := step
    obtain ⟨rfl, rfl⟩ := Prod.mk.inj ran
    exact ⟨⟨fault, fun sure => (by cases sure), rfl⟩, same⟩
  exact Always.embed each always ⟨rfl, rfl⟩

theorem always_ofRules {α : Type} {prog : RuleProgram α} {post : α → Host → Prop}
    (always : prog.Always (Route.Step node.ruleKernel) net.rules post) :
    (ofRules prog).Always (Step node) net fun a net' =>
      post a net'.rules ∧ net'.marks = net.marks ∧ net'.routes = net.routes := by
  have each : ∀ op (t : Network), t.marks = net.marks ∧ t.routes = net.routes →
      (SyncProgram.issue (.rule op)).Always (Step node) t fun answer t' =>
        Route.Step node.ruleKernel op t.rules answer t'.rules ∧
          t'.marks = net.marks ∧ t'.routes = net.routes := by
    intro op t same answer t' step
    obtain ⟨fault, ran⟩ := step
    obtain ⟨rfl, rfl⟩ := Prod.mk.inj ran
    exact ⟨⟨fault, rfl⟩, same⟩
  exact Always.embed each always ⟨rfl, rfl⟩

/-- What an interface asks for -/
structure Share where
  iface : InterfaceIdentifier
  link : Int
  table : Int
  fwmark : ℕ
  /-- whether the mark is one of the manager -/
  temporary : Bool
  allowedIPs : List Cidr

/-- The interface is enabled, and its routing table is not left alone. -/
def managed (i : Interface) : Bool :=
  !i.isDisabled && i.manageRoutingTable && !decide (i.getRoutingTable = 0 ∧ i.firewallMark = 0)

def Manager.share (m : Manager) (node : Node) (i : Interface) (link : Int) : Share where
  iface := i.identifier
  link := link
  table := m.tableOf i link
  fwmark := m.fwMarkOf i link
  temporary := i.firewallMark = 0
  allowedIPs := i.getAllowedIPs (node.db.getInterfacePeers i.identifier)

/-- What the interfaces ask for that have links -/
def Manager.shares (m : Manager) (node : Node) : List Interface → List Share
  | [] => []
  | i :: interfaces =>
    match node.links i.identifier with
    | some link =>
      if managed i then m.share node i link :: m.shares node interfaces
      else m.shares node interfaces
    | none => m.shares node interfaces

namespace Share

/-- The record for the rules of a family -/
def info (s : Share) (family : Family) : RouteRuleInfo :=
  Manager.ruleInfo s.iface s.table s.fwmark s.allowedIPs family

def Comes (s : Share) : Routes.NetlinkRoute Destination → Prop :=
  Routes.Comes s.link s.table s.allowedIPs

def Goes (s : Share) : Routes.NetlinkRoute Destination → Prop :=
  Routes.Goes s.link s.table s.allowedIPs

/-- The interface has the routes that it asks for and that no later one with the same table
takes, and no others. -/
structure Served (s : Share) (later : List Share) (before after : Network) : Prop where
  mark : s.temporary = true → after.marks s.iface = s.fwmark
  only : ∀ d, Holds s.link s.table after.routes d →
    (Holds s.link s.table before.routes d ∨ Wanted s.allowedIPs d) ∧ unmapped d.net ∈ s.allowedIPs
  wanted : ∀ d, Wanted s.allowedIPs d → unmapped d.net ∈ s.allowedIPs →
    (∀ t ∈ later, t.table = s.table → ¬ Wanted t.allowedIPs d) → Holds s.link s.table after.routes d

end Share

/-- None of these, but the interface itself, has a route to `d` put into its table. -/
def Share.Alone (s : Share) (shares : List Share) (d : Destination) : Prop :=
  ∀ t ∈ shares, t = s ∨ t.link ≠ s.link ∧ (t.table = s.table → ¬ Wanted t.allowedIPs d)

/-- Whatever fails, only what the interfaces ask for is touched, and no route is lost that one of
them asks for alone. -/
structure Frame (shares : List Share) (before after : Network) : Prop where
  routes : Changed (fun r => ∃ s ∈ shares, s.Comes r) (fun r => ∃ s ∈ shares, s.Goes r)
    before.routes after.routes
  marks : ∀ name, after.marks name = before.marks name ∨
    ∃ s ∈ shares, s.iface = name ∧ s.temporary = true ∧ after.marks name = s.fwmark
  stays : ∀ (s : Share) (d : Destination), unmapped d.net ∈ s.allowedIPs → s.Alone shares d →
    Holds s.link s.table before.routes d → Holds s.link s.table after.routes d

/-- Each interface is served while the later ones are. -/
def AllServed (shares : List Share) (before after : Network) : Prop :=
  ∀ earlier s later, shares = earlier ++ s :: later → s.Served later before after

variable {shares : List Share} {s : Share} {before mid after : Network}

theorem Frame.refl (shares : List Share) (net : Network) : Frame shares net net :=
  ⟨.refl _ _ _, fun _ => .inl rfl, fun _ _ _ _ held => held⟩

theorem Frame.trans (first : Frame shares before mid) (second : Frame shares mid after) :
    Frame shares before after := by
  refine ⟨first.routes.trans second.routes, fun name => ?_, fun s d allowed alone held => ?_⟩
  · rcases second.marks name with same | changed
    · rw [same]
      exact first.marks name
    · exact .inr changed
  · exact second.stays s d allowed alone (first.stays s d allowed alone held)

theorem Frame.mono {few : List Share} (frame : Frame few before after)
    (among : ∀ s ∈ few, s ∈ shares) : Frame shares before after where
  routes := frame.routes.mono (fun _ ⟨s, mem, comes⟩ => ⟨s, among s mem, comes⟩)
    (fun _ ⟨s, mem, goes⟩ => ⟨s, among s mem, goes⟩)
  marks name := (frame.marks name).imp_right fun ⟨s, mem, changed⟩ => ⟨s, among s mem, changed⟩
  stays s d allowed alone := frame.stays s d allowed fun t mem => alone t (among t mem)

/-- Two interfaces with links of their own -/
def Apart (s t : Share) : Prop := t.iface ≠ s.iface ∧ t.link ≠ s.link

theorem Frame.holds (frame : Frame shares before after) (apart : ∀ t ∈ shares, t.link ≠ s.link)
    {d : Destination} (holds : Holds s.link s.table after.routes d) :
    Holds s.link s.table before.routes d := by
  obtain ⟨r, mem, ofLink, inTable, unicast, dst⟩ := holds
  rcases frame.routes.comes r mem with old | ⟨t, other, comes⟩
  · exact ⟨r, old, ofLink, inTable, unicast, dst⟩
  · exact absurd (comes.1.symm.trans ofLink) (apart t other)

theorem Frame.keeps (frame : Frame shares before after) (apart : ∀ t ∈ shares, t.link ≠ s.link)
    {d : Destination} (holds : Holds s.link s.table before.routes d)
    (free : ∀ t ∈ shares, t.table = s.table → ¬ Wanted t.allowedIPs d) :
    Holds s.link s.table after.routes d := by
  obtain ⟨r, mem, ofLink, inTable, unicast, dst⟩ := holds
  rcases frame.routes.goes r mem with kept | ⟨t, other, goes⟩
  · exact ⟨r, kept, ofLink, inTable, unicast, dst⟩
  · have same : t.table = s.table := goes.1.symm.trans inTable
    rcases goes.2 with taken | own
    · exact absurd (dst ▸ taken) (free t other same)
    · exact absurd (own.1.symm.trans ofLink) (apart t other)

/-- What was served stays so while the interfaces that follow are served. -/
theorem Share.Served.later {later : List Share} (served : s.Served [] before mid)
    (frame : Frame later mid after) (apart : ∀ t ∈ later, Apart s t) :
    s.Served later before after where
  mark temporary := by
    rcases frame.marks s.iface with same | ⟨t, mem, named, -⟩
    · rw [same]
      exact served.mark temporary
    · exact absurd named (apart t mem).1
  only d holds := served.only d (frame.holds (fun t mem => (apart t mem).2) holds)
  wanted d asked read free := by
    have held := served.wanted d asked read fun _ none => absurd none List.not_mem_nil
    exact frame.keeps (fun t mem => (apart t mem).2) held free

theorem Share.Served.earlier {t : Share} {later : List Share} (served : s.Served later mid after)
    (frame : Frame [t] before mid) (apart : Apart t s) : s.Served later before after where
  mark := served.mark
  only d holds := by
    obtain ⟨from_, read⟩ := served.only d holds
    refine ⟨from_.imp_left fun held => frame.holds (fun u mem => ?_) held, read⟩
    obtain rfl := List.mem_singleton.mp mem
    exact apart.2.symm
  wanted := served.wanted

theorem mem_shares {interfaces : List Interface} (mem : s ∈ m.shares node interfaces) :
    ∃ i ∈ interfaces, managed i = true ∧ node.links i.identifier = some s.link ∧
      s = m.share node i s.link := by
  induction interfaces with
  | nil => cases mem
  | cons i interfaces ih =>
    have later : s ∈ m.shares node interfaces → ∃ j ∈ i :: interfaces, managed j = true ∧
        node.links j.identifier = some s.link ∧ s = m.share node j s.link := by
      intro inside
      obtain ⟨j, listed, facts⟩ := ih inside
      exact ⟨j, List.mem_cons_of_mem i listed, facts⟩
    rw [Manager.shares] at mem
    split at mem
    · rename_i link found
      split at mem
      · rename_i chosen
        rcases List.mem_cons.mp mem with rfl | inside
        · exact ⟨i, List.mem_cons_self, chosen, found, rfl⟩
        · exact later inside
      · exact later mem
    · exact later mem

theorem shares_unmanaged {i : Interface} (unmanaged : managed i = false)
    (interfaces : List Interface) :
    m.shares node (i :: interfaces) = m.shares node interfaces := by
  rw [Manager.shares]
  split
  · rw [unmanaged]
    rfl
  · rfl

theorem shares_managed {i : Interface} {link : Int} (chosen : managed i = true)
    (found : node.links i.identifier = some link) (interfaces : List Interface) :
    m.shares node (i :: interfaces) = m.share node i link :: m.shares node interfaces := by
  rw [Manager.shares, found]
  exact if_pos chosen

theorem apart_of_nodup {i : Interface} {link : Int} {interfaces : List Interface}
    (found : node.links i.identifier = some link)
    (absent : i.identifier ∉ interfaces.map Interface.identifier) {t : Share}
    (mem : t ∈ m.shares node interfaces) : Apart (m.share node i link) t := by
  obtain ⟨j, listed, -, link', same⟩ := mem_shares mem
  have ne : j.identifier ≠ i.identifier :=
    fun named => absent (named ▸ List.mem_map.mpr ⟨j, listed, rfl⟩)
  refine ⟨?_, fun shared => ?_⟩
  · rw [same]
    exact ne
  · rw [shared] at link'
    exact ne (node.links_inj link' found)

section Loop

variable {i : Interface} {link : Int}

theorem unmanaged_of_nothing (nothing : i.getRoutingTable = 0 ∧ i.firewallMark = 0) :
    managed i = false := by
  rw [managed, decide_eq_true nothing]
  exact Bool.and_false _

theorem something_of_managed (chosen : managed i = true) :
    ¬ (i.getRoutingTable = 0 ∧ i.firewallMark = 0) := by
  intro nothing
  rw [unmanaged_of_nothing nothing] at chosen
  cases chosen

theorem tableOf_ne_zero (chosen : managed i = true) : m.tableOf i link ≠ 0 := by
  intro zero
  rw [Manager.tableOf] at zero
  split at zero
  · rename_i none
    have some : i.firewallMark ≠ 0 := fun unset => something_of_managed chosen ⟨none, unset⟩
    rw [Manager.fwMarkOf, if_neg some] at zero
    exact some (Int.ofNat_eq_zero.mp zero)
  · contradiction

theorem always_getRoutingTableAndFwMark (chosen : managed i = true) (link : Int) (net : Network) :
    (m.getRoutingTableAndFwMark i link).Always (Step node) net fun result net' =>
      Frame [m.share node i link] net net' ∧ net'.routes = net.routes ∧ net'.rules = net.rules ∧
        ∀ answer, result = .ok answer → answer = (m.tableOf i link, m.fwMarkOf i link) ∧
          ((m.share node i link).temporary = true →
            net'.marks i.identifier = m.fwMarkOf i link) := by
  rw [Manager.getRoutingTableAndFwMark, if_neg (something_of_managed chosen)]
  by_cases unset : i.firewallMark = 0
  · rw [if_pos unset]
    intro answer net₁ step
    rcases step.configure with ⟨⟨err, rfl⟩, rfl⟩ | ⟨rfl, rfl⟩
    · exact ⟨.refl _ _, rfl, rfl, fun _ ok => by cases ok⟩
    · refine ⟨⟨.refl _ _ _, fun name => ?_, fun _ _ _ _ held => held⟩, rfl, rfl,
        fun _ ok => ⟨?_, fun _ => ?_⟩⟩
      · by_cases named : name = i.identifier
        · refine .inr ⟨_, List.mem_singleton_self _, named.symm, decide_eq_true unset, ?_⟩
          rw [named]
          exact Function.update_self ..
        · exact .inl (Function.update_of_ne named ..)
      · exact (Except.ok.inj ok).symm
      · exact Function.update_self ..
  · rw [if_neg unset]
    refine ⟨.refl _ _, rfl, rfl, fun _ ok => ⟨(Except.ok.inj ok).symm, fun temporary => ?_⟩⟩
    exact absurd (of_decide_eq_true temporary) unset

/-- The routes of one interface -/
theorem always_syncInterfaceRoutes (s : Share) (net : Network) :
    (ofRoutes (Routes.syncInterfaceRoutes s.iface s.link s.table s.allowedIPs)).Always (Step node)
      net fun result net' => Frame [s] net net' ∧ net'.marks = net.marks ∧ net'.rules = net.rules ∧
        (result = .ok () → ∀ d, Holds s.link s.table net'.routes d ↔
          (Holds s.link s.table net.routes d ∨ Wanted s.allowedIPs d) ∧
            unmapped d.net ∈ s.allowedIPs) := by
  have routes := @always_ofRoutes node net _ _ _
    ((Routes.effect_syncInterfaceRoutes s.iface net.routes).and
      (Routes.always_syncInterfaceRoutes s.iface s.link s.table s.allowedIPs net.routes))
  refine routes.mono fun result net' facts => ?_
  obtain ⟨⟨effect, synced, -⟩, marks, rules⟩ := facts
  have changed : Changed (fun r => ∃ t ∈ [s], t.Comes r) (fun r => ∃ t ∈ [s], t.Goes r)
      net.routes net'.routes :=
    effect.changed.mono (fun r comes => ⟨s, List.mem_singleton_self s, comes⟩)
      fun r goes => ⟨s, List.mem_singleton_self s, goes⟩
  refine ⟨⟨changed, fun name => .inl (congrFun marks name), fun t d allowed alone held => ?_⟩,
    marks, rules, fun ok => (synced ok).2⟩
  rcases alone s (List.mem_singleton_self s) with rfl | ⟨apart, free⟩
  · exact effect.keeps d allowed held
  · obtain ⟨r, mem, ofLink, inTable, unicast, dst⟩ := held
    rcases effect.changed.goes r mem with kept | ⟨same, taken | own⟩
    · exact ⟨r, kept, ofLink, inTable, unicast, dst⟩
    · exact absurd (dst ▸ taken) (free (same.symm.trans inTable))
    · exact absurd (own.1.symm.trans ofLink) apart

/-- What the loop over the interfaces has done -/
structure Looped (m : Manager) (node : Node) (interfaces : List Interface)
    (rules : Family → List RouteRuleInfo) (before after : Network)
    (result : Except Error (Family → List RouteRuleInfo)) : Prop where
  frame : Frame (m.shares node interfaces) before after
  untouched : after.rules = before.rules
  links : ∀ r, result = .ok r → ∀ i ∈ interfaces, managed i = true →
    ∃ link, node.links i.identifier = some link
  infos : ∀ r, result = .ok r → r = fun family =>
    rules family ++ (m.shares node interfaces).map (·.info family)
  served : ∀ r, result = .ok r → AllServed (m.shares node interfaces) before after

theorem Looped.error {interfaces : List Interface} {rules : Family → List RouteRuleInfo}
    {before after : Network} (err : Error) (frame : Frame (m.shares node interfaces) before after)
    (same : after.rules = before.rules) :
    Looped m node interfaces rules before after (.error err) :=
  ⟨frame, same, fun _ ok => (by cases ok), fun _ ok => (by cases ok), fun _ ok => (by cases ok)⟩

/-- An interface that is left alone -/
theorem Looped.skip {interfaces : List Interface} {rules : Family → List RouteRuleInfo}
    {before after : Network} {result : Except Error (Family → List RouteRuleInfo)}
    (unmanaged : managed i = false) (looped : Looped m node interfaces rules before after result) :
    Looped m node (i :: interfaces) rules before after result := by
  have shares : m.shares node (i :: interfaces) = m.shares node interfaces :=
    shares_unmanaged unmanaged interfaces
  refine ⟨shares ▸ looped.frame, looped.untouched, fun r ok j mem chosen => ?_,
    shares ▸ looped.infos, shares ▸ looped.served⟩
  rcases List.mem_cons.mp mem with rfl | inside
  · rw [unmanaged] at chosen
    cases chosen
  · exact looped.links r ok j inside chosen

/-- An interface whose routes are synchronized before those of the others -/
theorem Looped.serve {interfaces : List Interface} {rules : Family → List RouteRuleInfo}
    {before marked synced after : Network} {result : Except Error (Family → List RouteRuleInfo)}
    (chosen : managed i = true) (found : node.links i.identifier = some link)
    (absent : i.identifier ∉ interfaces.map Interface.identifier)
    (marks : Frame [m.share node i link] before marked) (sameRoutes : marked.routes = before.routes)
    (mark : (m.share node i link).temporary = true → marked.marks i.identifier = m.fwMarkOf i link)
    (routes : Frame [m.share node i link] marked synced) (sameMarks : synced.marks = marked.marks)
    (holds : ∀ d, Holds link (m.tableOf i link) synced.routes d ↔
      (Holds link (m.tableOf i link) marked.routes d ∨ Wanted (m.share node i link).allowedIPs d) ∧
        unmapped d.net ∈ (m.share node i link).allowedIPs)
    (sameRules : synced.rules = before.rules)
    (looped : Looped m node interfaces
      (fun family => rules family ++ [(m.share node i link).info family]) synced after result) :
    Looped m node (i :: interfaces) rules before after result := by
  have shares := shares_managed (m := m) chosen found interfaces
  have first : Frame [m.share node i link] before synced := marks.trans routes
  have apart : ∀ t ∈ m.shares node interfaces, Apart (m.share node i link) t :=
    fun t mem => apart_of_nodup found absent mem
  have own : (m.share node i link).Served [] before synced := by
    refine ⟨fun temporary => ?_, fun d held => ?_, fun d asked read _ => ?_⟩
    · rw [sameMarks]
      exact mark temporary
    · obtain ⟨from_, read⟩ := (holds d).mp held
      rw [sameRoutes] at from_
      exact ⟨from_, read⟩
    · exact (holds d).mpr ⟨.inr asked, read⟩
  constructor
  case frame =>
    rw [shares]
    refine (first.mono fun t mem => ?_).trans
      (looped.frame.mono fun t mem => List.mem_cons_of_mem _ mem)
    rw [List.mem_singleton.mp mem]
    exact List.mem_cons_self
  case untouched => exact looped.untouched.trans sameRules
  case links =>
    intro r ok j mem chosen'
    rcases List.mem_cons.mp mem with rfl | inside
    · exact ⟨link, found⟩
    · exact looped.links r ok j inside chosen'
  case infos =>
    intro r ok
    rw [looped.infos r ok, shares]
    funext family
    rw [List.map_cons, List.append_assoc, List.singleton_append]
  case served =>
    intro r ok earlier s later split
    rw [shares] at split
    cases earlier with
    | nil =>
      obtain ⟨rfl, rfl⟩ := List.cons.inj split
      exact own.later looped.frame apart
    | cons t earlier =>
      obtain ⟨rfl, rest⟩ := List.cons.inj split
      have mem : s ∈ m.shares node interfaces := by
        rw [rest]
        exact List.mem_append_right _ List.mem_cons_self
      exact (looped.served r ok earlier s later rest).earlier first (apart s mem)

theorem always_syncInterfaces {interfaces : List Interface}
    (once : (interfaces.map Interface.identifier).Nodup) (rules : Family → List RouteRuleInfo)
    (net : Network) :
    (m.syncInterfaces interfaces rules).Always (Step node) net fun result net' =>
      Looped m node interfaces rules net net' result := by
  induction interfaces generalizing rules net with
  | nil =>
    refine ⟨.refl _ _, rfl, fun _ _ _ none => absurd none List.not_mem_nil, fun r ok => ?_,
      fun _ _ earlier s later split => ?_⟩
    · rw [← Except.ok.inj ok]
      exact funext fun family => (List.append_nil _).symm
    · exact absurd split (List.cons_ne_nil s later ∘ fun none => (List.append_eq_nil_iff.mp
        none.symm).2)
  | cons i interfaces ih =>
    obtain ⟨absent, once⟩ := List.nodup_cons.mp once
    rw [Manager.syncInterfaces]
    split
    · rename_i disabled
      have unmanaged : managed i = false := by rw [managed, disabled]; rfl
      exact (ih once rules net).mono fun result net' looped => looped.skip unmanaged
    · split
      · rename_i alone
        have unmanaged : managed i = false := by
          rw [managed, Bool.not_eq_true' _ |>.mp alone, Bool.and_false, Bool.false_and]
        exact (ih once rules net).mono fun result net' looped => looped.skip unmanaged
      · rename_i enabled manages
        intro peers net₁ step
        obtain ⟨rfl, read⟩ := step.peers
        cases peers with
        | error err => exact .error _ (.refl _ _) rfl
        | ok peers =>
          obtain rfl := read peers rfl
          intro answer net₂ step
          obtain ⟨rfl, linked⟩ := step.link
          cases answer with
          | error err => exact .error _ (.refl _ _) rfl
          | ok link =>
            have found := linked link rfl
            by_cases nothing : i.getRoutingTable = 0 ∧ i.firewallMark = 0
            · simp only [Manager.getRoutingTableAndFwMark, if_pos nothing]
              exact (ih once rules net₂).mono
                fun result net' looped => looped.skip (unmanaged_of_nothing nothing)
            · have chosen : managed i = true := by
                rw [managed, decide_eq_false nothing]
                simp_all
              have shares := shares_managed (m := m) chosen found interfaces
              have among : ∀ t ∈ [m.share node i link], t ∈ m.shares node (i :: interfaces) := by
                intro t mem
                rw [shares, List.mem_singleton.mp mem]
                exact List.mem_cons_self
              refine (always_getRoutingTableAndFwMark chosen link net₂).bind
                fun result net₃ marked => ?_
              obtain ⟨marks, sameRoutes, sameRules, mark⟩ := marked
              cases result with
              | error err => exact .error _ (marks.mono among) sameRules
              | ok answer =>
                obtain ⟨rfl, applied⟩ := mark answer rfl
                have table : m.tableOf i link ≠ 0 := tableOf_ne_zero chosen
                have used : ¬ (m.tableOf i link = 0 ∧ m.fwMarkOf i link = 0) :=
                  fun zero => table zero.1
                simp only [if_neg used, if_neg table]
                refine (always_syncInterfaceRoutes (m.share node i link) net₃).bind
                  fun result net₄ synced => ?_
                obtain ⟨routes, sameMarks, stillRules, holds⟩ := synced
                cases result with
                | error err =>
                  exact .error _ ((marks.trans routes).mono among) (stillRules.trans sameRules)
                | ok _ =>
                  refine (ih once _ net₄).mono fun result net' looped => ?_
                  exact looped.serve chosen found absent marks sameRoutes applied routes sameMarks
                    (holds rfl) (stillRules.trans sameRules)

end Loop

/-- What the interfaces of the database ask for -/
def Manager.wanted (m : Manager) (node : Node) : List Share :=
  m.shares node node.db.getAllInterfaces

/-- The records for the rules of a family -/
def Manager.infos (m : Manager) (node : Node) (family : Family) : List RouteRuleInfo :=
  (m.wanted node).map (·.info family)

/-- What a run has done whose result is this -/
structure Done (m : Manager) (node : Node) (before after : Network) (result : Except Error Unit) :
    Prop where
  frame : Frame (m.wanted node) before after
  /-- The rules come after the routes of all interfaces. -/
  rulesLast : after.rules = before.rules ∨ AllServed (m.wanted node) before after
  served : result = .ok () → AllServed (m.wanted node) before after
  links : result = .ok () → ∀ i ∈ node.db.getAllInterfaces, managed i = true →
    ∃ link, node.links i.identifier = some link
  /-- The rules are as the interfaces ask for, unless the earlier rules stand in the way. -/
  rules : result = .ok () → m.cfg.core.ignoreMainDefaultRoute = false → ∀ family,
    (InSync (m.infos node family) (after.rules.rules family) ↔
      Settles (m.infos node family) (before.rules.rules family))

theorem AllServed.congr {shares : List Share} {before mid after : Network}
    (served : AllServed shares before mid) (marks : after.marks = mid.marks)
    (routes : after.routes = mid.routes) : AllServed shares before after := by
  intro earlier s later split
  obtain ⟨mark, only, wanted⟩ := served earlier s later split
  exact ⟨marks ▸ mark, routes ▸ only, routes ▸ wanted⟩

theorem Frame.congr {shares : List Share} {before mid after : Network}
    (frame : Frame shares before mid) (marks : after.marks = mid.marks)
    (routes : after.routes = mid.routes) : Frame shares before after :=
  ⟨routes ▸ frame.routes, marks ▸ frame.marks, routes ▸ frame.stays⟩

theorem always_syncRoutes {families : List Family} (both : families.Perm [.v4, .v6])
    (net : Network) :
    (m.syncRoutes families).Always (Step node) net fun result net' =>
      Done m node net net' result := by
  have failed : ∀ err net', Frame (m.wanted node) net net' → net'.rules = net.rules →
      Done m node net net' (.error err) := fun err net' frame same =>
    ⟨frame, .inl same, fun ok => (by cases ok), fun ok => (by cases ok), fun ok => (by cases ok)⟩
  intro answer net₁ step
  obtain ⟨rfl, read⟩ := step.interfaces
  cases answer with
  | error err => exact failed _ _ (.refl _ _) rfl
  | ok interfaces =>
    obtain rfl := read interfaces rfl
    refine (always_syncInterfaces node.db.interfaces.nodup (fun _ => []) net₁).bind
      fun result net₂ looped => ?_
    cases result with
    | error err => exact failed _ _ looped.frame looped.untouched
    | ok rules =>
      have infos : rules = m.infos node := looped.infos rules rfl
      have served := looped.served rules rfl
      have once : families.Nodup := both.nodup_iff.mpr (by decide)
      have each : ∀ family, family ∈ families := fun family => both.mem_iff.mpr (by
        cases family <;> decide)
      rw [infos]
      by_cases manages : m.cfg.core.ignoreMainDefaultRoute = false
      · refine (always_ofRules (always_syncRouteRules (m := m.toManager) manages (m.infos node)
          families once net₂.rules)).mono fun result net₃ facts => ?_
        obtain ⟨synced, marks, routes⟩ := facts
        refine ⟨looped.frame.congr marks routes, .inr (served.congr marks routes),
          fun _ => served.congr marks routes, fun _ => looped.links rules rfl,
          fun ok _ family => ?_⟩
        have done := (synced ok).1 family (each family)
        rw [looped.untouched] at done
        exact done.inSync_iff
      · have any : (m.toManager.syncRouteRules (m.infos node) families).Always
            (Route.Step node.ruleKernel) net₂.rules fun _ _ => True :=
          always_of_all (fun _ _ => trivial) _ _
        refine (always_ofRules any).mono fun result net₃ facts => ?_
        obtain ⟨-, marks, routes⟩ := facts
        exact ⟨looped.frame.congr marks routes, .inr (served.congr marks routes),
          fun _ => served.congr marks routes, fun _ => looped.links rules rfl,
          fun _ yes => absurd yes manages⟩

theorem table_pos {i : Interface} {link : Int} (chosen : managed i = true)
    (readable : 0 ≤ i.getRoutingTable) : 0 < m.tableOf i link := by
  have other : m.tableOf i link ≠ 0 := tableOf_ne_zero chosen
  have natural : 0 ≤ m.tableOf i link := by
    rw [Manager.tableOf]
    split
    · exact Int.natCast_nonneg _
    · exact readable
  omega

theorem pairwise_shares {interfaces : List Interface}
    (once : (interfaces.map Interface.identifier).Nodup) :
    (m.shares node interfaces).Pairwise Apart := by
  induction interfaces with
  | nil => exact .nil
  | cons i interfaces ih =>
    obtain ⟨absent, once⟩ := List.nodup_cons.mp once
    rw [Manager.shares]
    split
    · rename_i link found
      split
      · exact List.pairwise_cons.mpr ⟨fun t mem => apart_of_nodup found absent mem, ih once⟩
      · exact ih once
    · exact ih once

theorem AllServed.holds {before after : Network} {s : Share} {d : Destination}
    (served : AllServed (m.wanted node) before after) (mem : s ∈ m.wanted node)
    (asked : Wanted s.allowedIPs d) (allowed : unmapped d.net ∈ s.allowedIPs)
    (alone : s.Alone (m.wanted node) d) : Holds s.link s.table after.routes d := by
  obtain ⟨earlier, later, split⟩ := List.append_of_mem mem
  have apart : (earlier ++ s :: later).Pairwise Apart :=
    split ▸ pairwise_shares node.db.interfaces.nodup
  refine (served earlier s later split).wanted d asked allowed fun t inside => ?_
  have other : Apart s t :=
    (List.pairwise_cons.mp (List.pairwise_append.mp apart).2.1).1 t inside
  have listed : t ∈ m.wanted node := by
    rw [split]
    exact List.mem_append_right _ (List.mem_cons_of_mem s inside)
  rcases alone t listed with rfl | ⟨-, free⟩
  · exact absurd rfl other.2
  · exact free

/-- One call of `syncRoutes` -/
structure Attempt where
  db : Db
  families : List Family
  both : families.Perm [.v4, .v6]
  faults : ℕ → Option Error

def Node.withDb (node : Node) (db : Db) : Node := { node with db := db }

def attempt (m : Manager) (node : Node) (a : Attempt) (net : Network) :
    Except Error Unit × Network :=
  (m.syncRoutes a.families).run (node.withDb a.db) a.faults net

def attempts (m : Manager) (node : Node) (as : List Attempt) (net : Network) : Network :=
  as.foldl (fun net a => (attempt m node a net).2) net

theorem attempt_done (m : Manager) (node : Node) (a : Attempt) (net : Network) :
    Done m (node.withDb a.db) net (attempt m node a net).2 (attempt m node a net).1 :=
  run_of_always a.faults (always_syncRoutes a.both net)

theorem attempts_stays {as : List Attempt} {s : Share} {d : Destination}
    (allowed : unmapped d.net ∈ s.allowedIPs)
    (alone : ∀ a ∈ as, s.Alone (m.wanted (node.withDb a.db)) d)
    (held : Holds s.link s.table net.routes d) :
    Holds s.link s.table (attempts m node as net).routes d := by
  induction as generalizing net with
  | nil => exact held
  | cons a as ih =>
    obtain ⟨first, rest⟩ := List.forall_mem_cons.mp alone
    exact ih rest ((attempt_done m node a net).frame.stays s d allowed first held)

theorem attempts_append (m : Manager) (node : Node) (first second : List Attempt)
    (net : Network) : attempts m node (first ++ second) net =
      attempts m node second (attempts m node first net) := List.foldl_append

/-- `wg0` with the link 7 and a table of its own -/
def ownTable : Interface := { Interface.zero with identifier := "wg0", routingTable := "51820" }

def client : Peer :=
  { Peer.zero with
    identifier := "k1"
    interfaceIdentifier := "wg0"
    interface := { Peer.zero.interface with addresses := cidrsOrNil "10.0.0.2/32" } }

def oneClient : Db := (Db.empty.commitInterface "admin" 0 ownTable).upsertPeer "admin" 0 client

def plainNode : Node where
  db := oneClient
  links name := if name = "wg0" then some 7 else none
  links_inj := by
    intro a b k first second
    split at first
    · split at second
      · simp_all
      · cases second
    · cases first
  routeKernel := Routes.linux
  ruleKernel := byPriority

def plainManager : Manager := { cfg := Config.defaultConfig, routeTableOffset := 20000 }

def plainNetwork : Network where
  marks _ := 0
  routes := []
  rules := plainHost

def calm : Attempt := ⟨oneClient, [.v4, .v6], .refl _, fun _ => none⟩

/-- The fifth operation sets the route. -/
def failing : Attempt :=
  ⟨oneClient, [.v4, .v6], .refl _, fun n => if n = 4 then some (.other "busy") else none⟩

end WgPortal.Route.SyncRoutes
