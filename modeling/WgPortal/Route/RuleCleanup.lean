import WgPortal.Route.Rules
import WgPortal.WireGuard.Restore

/-! Which rules are deleted for an interface that is removed or disabled. -/

namespace WgPortal.Route

open Domain Library

/-- What is published about an interface that is removed or disabled. -/
def removedInfo (iface : Interface) (physicalInterface : Except Error PhysicalInterface) :
    RoutingTableInfo where
  fwMark :=
    match physicalInterface with
    | .ok pi => if iface.firewallMark = 0 then pi.firewallMark else iface.firewallMark
    | .error _ => iface.firewallMark
  table := iface.getRoutingTable

/-- An interface that is saved disabled is announced with its rules. -/
theorem announceInterface_disabled (m : WireGuard.Manager) {iface : Interface}
    (disabled : iface.isDisabled = true) :
    m.announceInterface iface =
      WireGuard.InterfaceProgram.issue (.getInterface (m.getController iface) iface.identifier) >>=
        fun pi => WireGuard.InterfaceProgram.issue (.manager (.publish
          (.routeRemove (removedInfo iface pi).fwMark (removedInfo iface pi).table))) := by
  rw [WireGuard.Manager.announceInterface, if_pos disabled]
  refine congrArg _ (funext fun physicalInterface => ?_)
  cases physicalInterface <;> rfl

/-- What the portal adds for this mark and table. -/
def RoutingTableInfo.IsPortalRule (info : RoutingTableInfo) (rule : Rule) : Prop :=
  rule.invert = true ∧ info.fwMark = rule.mark ∧ info.getRoutingTable = rule.table

instance (info : RoutingTableInfo) (rule : Rule) : Decidable (info.IsPortalRule rule) :=
  inferInstanceAs (Decidable (_ ∧ _))

/-- The rules of the portal are deleted and no others. -/
def RemovesPortalRules (info : RoutingTableInfo) (before after : Host) : Prop :=
  ∀ family, after.rules family =
    (before.rules family).filter fun rule => ¬ (info.managementEnabled ∧ info.IsPortalRule rule)

def matching (fwmark : ℕ) (table : Int) (rule : Rule) : Bool :=
  fwmark = rule.mark ∧ table = rule.table

def Host.deleteAll (host : Host) (family : Family) (rules : Rules) : Host :=
  rules.foldl (fun host rule => host.delete family rule) host

theorem Host.deleteAll_self (host : Host) (family : Family) (rules : Rules) :
    (host.deleteAll family rules).rules family = rules.foldl List.erase (host.rules family) := by
  induction rules generalizing host with
  | nil => rfl
  | cons rule rules ih =>
    have first : (host.delete family rule).rules family = (host.rules family).erase rule :=
      Function.update_self ..
    simp only [Host.deleteAll, List.foldl_cons] at ih ⊢
    rw [ih, first]

theorem Host.deleteAll_of_ne (host : Host) {family other : Family} (ne : other ≠ family)
    (rules : Rules) : (host.deleteAll family rules).rules other = host.rules other := by
  induction rules generalizing host with
  | nil => rfl
  | cons rule rules ih =>
    simp only [Host.deleteAll, List.foldl_cons] at ih ⊢
    rw [ih]
    exact Function.update_of_ne ne ..

theorem foldl_erase_append {α : Type} [DecidableEq α] {p : α → Bool} {kept : List α}
    (none : ∀ a ∈ kept, p a = false) (rest : List α) :
    (rest.filter p).foldl List.erase (kept ++ rest) = kept ++ rest.filter fun a => ¬ p a := by
  induction rest generalizing kept with
  | nil => rfl
  | cons a rest ih =>
    cases holds : p a with
    | true =>
      have fresh : a ∉ kept := fun mem => by simp [none a mem] at holds
      rw [List.filter_cons_of_pos holds, List.filter_cons_of_neg (by simp [holds]),
        List.foldl_cons, List.erase_append_right _ fresh, List.erase_cons_head]
      exact ih none
    | false =>
      have none' : ∀ b ∈ kept ++ [a], p b = false := by
        intro b mem
        rcases List.mem_append.mp mem with before | here
        · exact none b before
        · exact List.mem_singleton.mp here ▸ holds
      have step := ih none'
      rw [List.append_assoc, List.singleton_append, List.append_assoc,
        List.singleton_append] at step
      rw [List.filter_cons_of_neg (by simp [holds]), List.filter_cons_of_pos (by simp [holds]),
        step]

/-- Erasing what satisfies a property one by one. -/
theorem foldl_erase_filter {α : Type} [DecidableEq α] (p : α → Bool) (all : List α) :
    (all.filter p).foldl List.erase all = all.filter fun a => ¬ p a :=
  @foldl_erase_append α _ p [] (fun _ mem => absurd mem List.not_mem_nil) all

section Calm

variable {kernel : Kernel} {faults : ℕ → Option Error} (calm : ∀ n, faults n = none)

include calm

theorem inTurn_list (family : Family) (n : ℕ) (host : Host) :
    inTurn kernel faults (.ruleList family) (n, host) =
      (.ok (host.rules family), (n + 1, host)) := by
  simp only [inTurn, RuleOp.exec, calm]

theorem inTurn_del (family : Family) (rule : Rule) (n : ℕ) (host : Host) :
    inTurn kernel faults (.ruleDel family rule) (n, host) =
      (.ok (), (n + 1, host.delete family rule)) := by
  simp only [inTurn, RuleOp.exec, calm]

theorem eval_deleteMatching (fwmark : ℕ) (table : Int) (family : Family) (rules : Rules) (n : ℕ)
    (host : Host) : ∃ n', (Manager.deleteMatching fwmark table family rules).eval
      (inTurn kernel faults) (n, host) =
        (.ok (), (n', host.deleteAll family (rules.filter (matching fwmark table)))) := by
  induction rules generalizing n host with
  | nil => exact ⟨n, rfl⟩
  | cons rule rules ih =>
    by_cases matched : fwmark = rule.mark ∧ table = rule.table
    · have listed : matching fwmark table rule = true := decide_eq_true matched
      obtain ⟨n', rest⟩ := ih (n + 1) (host.delete family rule)
      refine ⟨n', ?_⟩
      simp only [Manager.deleteMatching, if_pos matched, RuleProgram.issue, Program.perform_bind,
        Program.eval_call, inTurn_del calm, rest]
      rw [List.filter_cons_of_pos listed, Host.deleteAll, Host.deleteAll, List.foldl_cons]
    · have unlisted : ¬ matching fwmark table rule = true := fun listed =>
        matched (of_decide_eq_true listed)
      obtain ⟨n', rest⟩ := ih n host
      refine ⟨n', ?_⟩
      simp only [Manager.deleteMatching, if_neg matched, rest]
      rw [List.filter_cons_of_neg unlisted]

theorem eval_removeFwMarkRules (fwmark : ℕ) (table : Int) (family : Family) (n : ℕ) (host : Host) :
    ∃ n', (Manager.removeFwMarkRules fwmark table family).eval (inTurn kernel faults) (n, host) =
      (.ok (), (n', host.deleteAll family
        ((host.rules family).filter (matching fwmark table)))) := by
  simp only [Manager.removeFwMarkRules, RuleProgram.issue, Program.perform_bind,
    Program.eval_call, inTurn_list calm]
  exact eval_deleteMatching calm fwmark table family _ _ host

/-- Every rule with the mark and the table is deleted, whoever added it. -/
theorem run_handleRouteRemoveEvent (info : RoutingTableInfo) (host : Host) (family : Family) :
    ((Manager.handleRouteRemoveEvent info).run kernel faults host).2.rules family =
      (host.rules family).filter fun rule =>
        ¬ (info.managementEnabled ∧ matching info.fwMark info.getRoutingTable rule) := by
  cases managed : info.managementEnabled with
  | false =>
    simp only [Manager.handleRouteRemoveEvent, managed, RuleProgram.run, Bool.not_false, if_true,
      Program.pure_eq, Program.eval_ret, Bool.false_eq_true, false_and, not_false_eq_true,
      decide_true, List.filter_true]
  | true =>
    obtain ⟨n, first⟩ := @eval_removeFwMarkRules kernel faults calm info.fwMark
      info.getRoutingTable .v4 0 host
    obtain ⟨n', second⟩ := @eval_removeFwMarkRules kernel faults calm info.fwMark
      info.getRoutingTable .v6 n (host.deleteAll .v4
        ((host.rules .v4).filter (matching info.fwMark info.getRoutingTable)))
    simp only [Manager.handleRouteRemoveEvent, managed, RuleProgram.run, Bool.not_true,
      Bool.false_eq_true, if_false, Program.eval_bind, first, second, Program.pure_eq,
      Program.eval_ret, true_and]
    cases family with
    | v4 =>
      rw [Host.deleteAll_of_ne _ (by decide), Host.deleteAll_self, foldl_erase_filter]
    | v6 =>
      have other : (host.deleteAll .v4 ((host.rules .v4).filter
          (matching info.fwMark info.getRoutingTable))).rules .v6 = host.rules .v6 :=
        Host.deleteAll_of_ne _ (by decide) _
      rw [Host.deleteAll_self, other, foldl_erase_filter]

end Calm

theorem filter_eq_iff {α : Type} {p q : α → Bool} {l : List α} (weaker : ∀ a, q a → p a) :
    l.filter p = l.filter q ↔ ∀ a ∈ l, p a → q a := by
  constructor
  · intro same a mem holds
    have kept : a ∈ l.filter q := same ▸ List.mem_filter.mpr ⟨mem, holds⟩
    exact (List.mem_filter.mp kept).2
  · intro stronger
    exact List.filter_congr fun a mem => Bool.eq_iff_iff.mpr ⟨stronger a mem, weaker a⟩

/-- Exactly the rules of the portal are deleted for a removed or disabled interface, if and only
if no rule of anybody else has its mark and its table. -/
theorem handleRouteRemoveEvent_portalRules_iff (kernel : Kernel) (iface : Interface)
    (physicalInterface : Except Error PhysicalInterface) {faults : ℕ → Option Error}
    (calm : ∀ n, faults n = none) (host : Host) :
    RemovesPortalRules (removedInfo iface physicalInterface) host
        ((Manager.handleRouteRemoveEvent (removedInfo iface physicalInterface)).run kernel faults
          host).2 ↔
      ((removedInfo iface physicalInterface).managementEnabled = true → ∀ family,
        ∀ rule ∈ host.rules family, (removedInfo iface physicalInterface).fwMark = rule.mark →
          (removedInfo iface physicalInterface).getRoutingTable = rule.table →
            rule.invert = true) := by
  generalize removedInfo iface physicalInterface = info
  have family_iff : ∀ family,
      ((Manager.handleRouteRemoveEvent info).run kernel faults host).2.rules family =
        ((host.rules family).filter fun rule =>
          ¬ (info.managementEnabled ∧ info.IsPortalRule rule)) ↔
      (info.managementEnabled = true → ∀ rule ∈ host.rules family, info.fwMark = rule.mark →
        info.getRoutingTable = rule.table → rule.invert = true) := by
    intro family
    rw [run_handleRouteRemoveEvent calm, eq_comm, filter_eq_iff]
    · constructor
      · intro kept managed rule mem mark table
        by_contra foreign
        have spared : ¬ (info.managementEnabled = true ∧ info.IsPortalRule rule) :=
          fun portal => foreign portal.2.1
        have unmatched := of_decide_eq_true (kept rule mem (decide_eq_true spared))
        exact unmatched ⟨managed, decide_eq_true ⟨mark, table⟩⟩
      · intro portal rule mem notPortal
        refine decide_eq_true fun matched => ?_
        obtain ⟨managed, same⟩ := matched
        obtain ⟨mark, table⟩ := of_decide_eq_true same
        exact of_decide_eq_true notPortal
          ⟨managed, portal managed rule mem mark table, mark, table⟩
    · intro rule unmatched
      refine decide_eq_true fun portal => ?_
      exact of_decide_eq_true unmatched ⟨portal.1, decide_eq_true portal.2.2⟩
  constructor
  · exact fun removes managed family => (family_iff family).mp (removes family) managed
  · exact fun portal family => (family_iff family).mpr fun managed => portal managed family

def tunnel (mark : ℕ) (table : String) : Interface :=
  { Interface.zero with
    identifier := "wg0", firewallMark := mark, routingTable := table, disabled := some 1 }

theorem markedTunnel_portalRules :
    RemovesPortalRules (removedInfo (tunnel 51820 "") (.error .notFound)) plainHost
      ((Manager.handleRouteRemoveEvent (removedInfo (tunnel 51820 "") (.error .notFound))).run
        byPriority (fun _ => none) plainHost).2 := by
  refine (handleRouteRemoveEvent_portalRules_iff byPriority (tunnel 51820 "") (.error .notFound)
    (fun _ => rfl) plainHost).mpr fun _ family => ?_
  cases family <;> decide +kernel

/-- For an interface without a mark that has the main table, the rule of the kernel goes that
looks routes up there. -/
theorem mainTable_foreignRule :
    ((Manager.handleRouteRemoveEvent (removedInfo (tunnel 0 "254") (.error .notFound))).run
        byPriority (fun _ => none) plainHost).2.deleted =
      [(.v4, kernelRule 32766 254), (.v6, kernelRule 32766 254)] ∧
    ¬ RemovesPortalRules (removedInfo (tunnel 0 "254") (.error .notFound)) plainHost
      ((Manager.handleRouteRemoveEvent (removedInfo (tunnel 0 "254") (.error .notFound))).run
        byPriority (fun _ => none) plainHost).2 := by
  refine ⟨by decide +kernel, fun portal => ?_⟩
  have kept := portal .v4
  revert kept
  decide +kernel

end WgPortal.Route
