import WgPortal.Config.Config
import WgPortal.Domain.Interface
import WgPortal.Library.Program

/-! The routing rules of the kernel, and what the route manager does to them. -/

namespace WgPortal.Route

open Domain Library Config

inductive Family where
  | v4
  | v6
deriving DecidableEq

/-- `netlink.Rule`, without the family, which a list does not show. -/
structure Rule where
  priority : Int
  table : Int
  mark : ℕ
  mask : Option ℕ
  goto : Int
  flow : Int
  suppressIfgroup : Int
  suppressPrefixlen : Int
  invert : Bool
  /-- what the manager neither sets nor reads, as addresses and interfaces -/
  others : List (String × String)
deriving DecidableEq

/-- `unix.RT_TABLE_MAIN` -/
def rtTableMain : Int := 254

/-- The rules of one family in the order in which they are listed. -/
abbrev Rules := List Rule

/-- The kernel puts a rule in its place between the others. What it lists of the rule may
have got a mask and, if it has none, a priority. -/
structure Kernel where
  add : Rule → Rules → Rules
  add_eq : ∀ rule rules, ∃ before after mask priority, rules = before ++ after ∧
    add rule rules = before ++ { rule with mask := mask, priority := priority } :: after

/-- The rules are sorted by their priorities. -/
def byPriority : Kernel where
  add rule rules :=
    rules.takeWhile (·.priority ≤ rule.priority) ++ rule ::
      rules.dropWhile (·.priority ≤ rule.priority)
  add_eq rule _ :=
    ⟨_, _, rule.mask, rule.priority, List.takeWhile_append_dropWhile.symm, rfl⟩

inductive RuleOp where
  | ruleList (family : Family)
  | ruleAdd (family : Family) (rule : Rule)
  | ruleDel (family : Family) (rule : Rule)

abbrev RuleOp.Res : RuleOp → Type
  | ruleList _ => Except Error Rules
  | ruleAdd .. => Except Error Unit
  | ruleDel .. => Except Error Unit

abbrev RuleProgram := Program RuleOp RuleOp.Res

def RuleProgram.issue (op : RuleOp) : RuleProgram op.Res := Program.perform op

open RuleProgram (issue)

/-- The rules of the host, with the changes so far. -/
structure Host where
  rules : Family → Rules
  added : List (Family × Rule)
  deleted : List (Family × Rule)

namespace Host

def add (kernel : Kernel) (host : Host) (family : Family) (rule : Rule) : Host :=
  { host with
    rules := Function.update host.rules family (kernel.add rule (host.rules family))
    added := host.added ++ [(family, rule)] }

def delete (host : Host) (family : Family) (rule : Rule) : Host :=
  { host with
    rules := Function.update host.rules family ((host.rules family).erase rule)
    deleted := host.deleted ++ [(family, rule)] }

end Host

/-- An operation that fails has no effect. -/
def RuleOp.exec (kernel : Kernel) (fault : Option Error) : (op : RuleOp) → Host → op.Res × Host
  | .ruleList family, host =>
    (match fault with | some err => .error err | none => .ok (host.rules family), host)
  | .ruleAdd family rule, host =>
    match fault with
    | some err => (.error err, host)
    | none => (.ok (), host.add kernel family rule)
  | .ruleDel family rule, host =>
    match fault with
    | some err => (.error err, host)
    | none => (.ok (), host.delete family rule)

/-- The operations of a call in a row, of which some fail. -/
def inTurn (kernel : Kernel) (faults : ℕ → Option Error) (op : RuleOp) (s : ℕ × Host) :
    op.Res × (ℕ × Host) :=
  let (answer, host) := op.exec kernel (faults s.1) s.2
  (answer, (s.1 + 1, host))

def RuleProgram.run {α : Type} (kernel : Kernel) (faults : ℕ → Option Error)
    (prog : RuleProgram α) (host : Host) : α × Host :=
  let (result, s) := prog.eval (inTurn kernel faults) (0, host)
  (result, s.2)

structure RoutingTableInfo where
  fwMark : ℕ
  table : Int

namespace RoutingTableInfo

def managementEnabled (r : RoutingTableInfo) : Bool := r.table ≠ -1

/-- The dynamic routing table has the number of the firewall mark. -/
def getRoutingTable (r : RoutingTableInfo) : Int := if r.table ≤ 0 then r.fwMark else r.table

end RoutingTableInfo

structure RouteRuleInfo where
  ifaceId : InterfaceIdentifier
  fwMark : ℕ
  table : Int
  hasDefault : Bool

/-- The first free priority from `prio` on. Each step passes one that is taken, so one
more step than there are rules is enough. -/
def freshPriority (step : Int) (existingRules : Rules) : ℕ → Int → Int
  | 0, prio => prio
  | steps + 1, prio =>
    if existingRules.any (·.priority = prio) then
      freshPriority step existingRules steps (prio + step)
    else prio

def familyNumber : Family → String
  | .v4 => "2"
  | .v6 => "10"

def ruleListError (family : Family) (err : Error) : Error :=
  .wrap ("failed to get existing rules for family " ++ familyNumber family) err

/-- The rule that lets the main table suppress its default route -/
def isMainRule (rule : Rule) : Bool := rule.table = rtTableMain ∧ rule.suppressPrefixlen = 0

structure Manager where
  cfg : Config

namespace Manager

variable (m : Manager)

def getRulePriority (existingRules : Rules) : Int :=
  freshPriority (-1) existingRules (existingRules.length + 1) 32700

def getMainRulePriority (existingRules : Rules) : Int :=
  freshPriority 1 existingRules (existingRules.length + 1) m.cfg.advanced.rulePrioOffset

/-- The rule that is created for an interface. -/
def fwMarkRule (rule : RouteRuleInfo) (priority : Int) : Rule where
  priority := priority
  table := rule.table
  mark := rule.fwMark
  mask := none
  goto := -1
  flow := -1
  suppressIfgroup := -1
  suppressPrefixlen := -1
  invert := true
  others := []

def mainRule (priority : Int) : Rule where
  priority := priority
  table := rtTableMain
  mark := 0
  mask := none
  goto := -1
  flow := -1
  suppressIfgroup := -1
  suppressPrefixlen := 0
  invert := false
  others := []

def setFwMarkRules (family : Family) : List RouteRuleInfo → RuleProgram (Except Error Unit)
  | [] => return .ok ()
  | rule :: rules => do
    match ← issue (.ruleList family) with
    | .error err => return .error (ruleListError family err)
    | .ok existingRules =>
      if existingRules.any fun r => rule.fwMark = r.mark ∧ rule.table = r.table then
        setFwMarkRules family rules
      else
        match ← issue (.ruleAdd family (fwMarkRule rule (getRulePriority existingRules))) with
        | .error err =>
          return .error (.wrap ("failed to setup rule for fwmark " ++ toString rule.fwMark ++
            " and table " ++ toString rule.table) err)
        | .ok _ => setFwMarkRules family rules

/-- The loop of `removeFwMarkRules`. -/
def deleteMatching (fwmark : ℕ) (table : Int) (family : Family) :
    Rules → RuleProgram (Except Error Unit)
  | [] => return .ok ()
  | rule :: rules => do
    if fwmark = rule.mark ∧ table = rule.table then
      match ← issue (.ruleDel family rule) with
      | .error err => return .error (.wrap "failed to delete fwmark rule" err)
      | .ok _ => deleteMatching fwmark table family rules
    else deleteMatching fwmark table family rules

def removeFwMarkRules (fwmark : ℕ) (table : Int) (family : Family) :
    RuleProgram (Except Error Unit) := do
  match ← issue (.ruleList family) with
  | .error err => return .error (ruleListError family err)
  | .ok existingRules => deleteMatching fwmark table family existingRules

/-- Errors are only logged. -/
def handleRouteRemoveEvent (info : RoutingTableInfo) : RuleProgram Unit := do
  if !info.managementEnabled then return
  let _ ← removeFwMarkRules info.fwMark info.getRoutingTable .v4
  let _ ← removeFwMarkRules info.fwMark info.getRoutingTable .v6
  return

/-- What `setMainRule` asks of the interfaces. -/
def shouldHaveMainRule (rules : List RouteRuleInfo) : Bool :=
  rules.any fun rule => rule.hasDefault ∧ rule.fwMark ≠ 0 ∧ rule.table ≠ rtTableMain

def setMainRule (rules : List RouteRuleInfo) (family : Family) :
    RuleProgram (Except Error Unit) := do
  if m.cfg.core.ignoreMainDefaultRoute then return .ok ()
  else if !shouldHaveMainRule rules then return .ok ()
  else
    match ← issue (.ruleList family) with
    | .error err => return .error (ruleListError family err)
    | .ok existingRules =>
      if existingRules.any isMainRule then return .ok ()
      else
        match ← issue (.ruleAdd family (mainRule (m.getMainRulePriority existingRules))) with
        | .error err => return .error (.wrap "failed to setup rule for main table" err)
        | .ok _ => return .ok ()

/-- The loop of `cleanupMainRule`. -/
def deleteMainRules (family : Family) : ℕ → Rules → RuleProgram (Except Error Unit)
  | _, [] => return .ok ()
  | removalCount, rule :: rules => do
    if isMainRule rule ∧ 0 < removalCount then
      match ← issue (.ruleDel family rule) with
      | .error err => return .error (.wrap "failed to delete main rule" err)
      | .ok _ => deleteMainRules family (removalCount - 1) rules
    else deleteMainRules family removalCount rules

def cleanupMainRule (rules : List RouteRuleInfo) (family : Family) :
    RuleProgram (Except Error Unit) := do
  if m.cfg.core.ignoreMainDefaultRoute then return .ok ()
  else
    match ← issue (.ruleList family) with
    | .error err => return .error (ruleListError family err)
    | .ok existingRules =>
      -- unlike `setMainRule`, this asks for neither a mark nor another table
      let shouldHaveMainRule := rules.any RouteRuleInfo.hasDefault
      let mainRules := existingRules.countP isMainRule
      let removalCount :=
        if !shouldHaveMainRule then mainRules
        -- only one single rule is wanted
        else if mainRules > 1 then mainRules - 1
        else 0
      deleteMainRules family removalCount existingRules

def syncFamilyRules (rules : List RouteRuleInfo) (family : Family) :
    RuleProgram (Except Error Unit) := do
  match ← setFwMarkRules family rules with
  | .error err => return .error err
  | .ok _ =>
    match ← m.setMainRule rules family with
    | .error err => return .error err
    | .ok _ => m.cleanupMainRule rules family

/-- The families come in the order of a map. -/
def syncRouteRules (allRules : Family → List RouteRuleInfo) :
    List Family → RuleProgram (Except Error Unit)
  | [] => return .ok ()
  | family :: families => do
    match ← m.syncFamilyRules (allRules family) family with
    | .error err => return .error err
    | .ok _ => syncRouteRules allRules families

end Manager

/-- The rules of a host without portal. -/
def kernelRule (priority table : Int) : Rule :=
  { Manager.fwMarkRule ⟨"", 0, table, false⟩ priority with invert := false }

def plainHost : Host where
  rules _ := [kernelRule 0 255, kernelRule 32766 254, kernelRule 32767 253]
  added := []
  deleted := []

end WgPortal.Route
