import WgPortal.Route.Rules

/-! The rules after the route manager has brought them in line with the
interfaces, and what another synchronization does. -/

namespace WgPortal.Route

open Domain Library Program Config

variable {kernel : Kernel} {m : Manager}

/-- An operation that works, or fails and changes nothing. -/
def Step (kernel : Kernel) (op : RuleOp) (host : Host) (answer : op.Res) (host' : Host) : Prop :=
  ∃ fault, op.exec kernel fault host = (answer, host')

theorem run_of_always {α : Type} {prog : RuleProgram α} {host : Host} {post : α → Host → Prop}
    (faults : ℕ → Option Error) (always : prog.Always (Step kernel) host post) :
    post (prog.run kernel faults host).1 (prog.run kernel faults host).2 := by
  have start : prog.Always (Step kernel) (Prod.snd (0, host)) post := always
  have steps : ∀ op (s : ℕ × Host), Step kernel op s.2 (inTurn kernel faults op s).1
      (inTurn kernel faults op s).2.2 := fun op s => ⟨faults s.1, rfl⟩
  exact start.eval steps

theorem Step.list {family : Family} {host host' : Host} {answer : Except Error Rules}
    (step : Step kernel (.ruleList family) host answer host') :
    host' = host ∧ ∀ rules, answer = .ok rules → rules = host.rules family := by
  obtain ⟨fault, ran⟩ := step
  obtain ⟨rfl, rfl⟩ := Prod.mk.inj ran
  refine ⟨rfl, fun rules ok => ?_⟩
  cases fault with
  | none => exact (Except.ok.inj ok).symm
  | some err => cases ok

theorem Step.add {family : Family} {rule : Rule} {host host' : Host} {answer : Except Error Unit}
    (step : Step kernel (.ruleAdd family rule) host answer host') :
    (∃ err, answer = .error err) ∨ answer = .ok () ∧ host' = host.add kernel family rule := by
  obtain ⟨fault, ran⟩ := step
  cases fault with
  | none =>
    obtain ⟨rfl, rfl⟩ := Prod.mk.inj ran
    exact .inr ⟨rfl, rfl⟩
  | some err => exact .inl ⟨err, (Prod.mk.inj ran).1.symm⟩

theorem Step.del {family : Family} {rule : Rule} {host host' : Host} {answer : Except Error Unit}
    (step : Step kernel (.ruleDel family rule) host answer host') :
    (∃ err, answer = .error err) ∨ answer = .ok () ∧ host' = host.delete family rule := by
  obtain ⟨fault, ran⟩ := step
  cases fault with
  | none =>
    obtain ⟨rfl, rfl⟩ := Prod.mk.inj ran
    exact .inr ⟨rfl, rfl⟩
  | some err => exact .inl ⟨err, (Prod.mk.inj ran).1.symm⟩

/-- The rule looks up the table of the interface for its mark. -/
def RouteRuleInfo.Matches (info : RouteRuleInfo) (rule : Rule) : Prop :=
  info.fwMark = rule.mark ∧ info.table = rule.table

def Covered (rules : Rules) (info : RouteRuleInfo) : Prop := ∃ rule ∈ rules, info.Matches rule

/-- The rules are as the interfaces ask for. -/
structure InSync (infos : List RouteRuleInfo) (rules : Rules) : Prop where
  covered : ∀ info ∈ infos, Covered rules info
  mainRules : rules.countP isMainRule = if Manager.shouldHaveMainRule infos then 1 else 0

/-- A change to the rules of one family. -/
def OnlyFamily (family : Family) (host host' : Host) : Prop :=
  ∀ other, other ≠ family → host'.rules other = host.rules other

theorem OnlyFamily.trans {family : Family} {a b c : Host} (first : OnlyFamily family a b)
    (second : OnlyFamily family b c) : OnlyFamily family a c :=
  fun other ne => (second other ne).trans (first other ne)

theorem Host.add_self (host : Host) (family : Family) (rule : Rule) :
    (host.add kernel family rule).rules family = kernel.add rule (host.rules family) :=
  Function.update_self ..

theorem Host.delete_self (host : Host) (family : Family) (rule : Rule) :
    (host.delete family rule).rules family = (host.rules family).erase rule :=
  Function.update_self ..

theorem Host.add_only (host : Host) (family : Family) (rule : Rule) :
    OnlyFamily family host (host.add kernel family rule) :=
  fun _ ne => Function.update_of_ne ne ..

theorem Host.delete_only (host : Host) (family : Family) (rule : Rule) :
    OnlyFamily family host (host.delete family rule) :=
  fun _ ne => Function.update_of_ne ne ..

/-- Rules for the marks of interfaces were added where there were none. -/
structure Marked (infos : List RouteRuleInfo) (before after : Rules) : Prop where
  kept : before.Sublist after
  mainRules : after.filter isMainRule = before.filter isMainRule
  added : ∀ rule ∈ after, rule ∈ before ∨
    ∀ info : RouteRuleInfo, info.Matches rule → ¬ Covered before info
  covered : ∀ info ∈ infos, Covered after info

theorem Kernel.mem_add {rule r : Rule} {rules : Rules} (mem : r ∈ kernel.add rule rules) :
    r ∈ rules ∨ ∃ mask priority, r = { rule with mask := mask, priority := priority } := by
  obtain ⟨before, after, mask, priority, rfl, same⟩ := kernel.add_eq rule rules
  rw [same] at mem
  rcases List.mem_append.mp mem with left | right
  · exact .inl (List.mem_append_left _ left)
  · rcases List.mem_cons.mp right with rfl | right
    · exact .inr ⟨mask, priority, rfl⟩
    · exact .inl (List.mem_append_right _ right)

theorem Kernel.sublist_add (rule : Rule) (rules : Rules) : rules.Sublist (kernel.add rule rules) := by
  obtain ⟨before, after, mask, priority, split, same⟩ := kernel.add_eq rule rules
  rw [same, split]
  exact (List.Sublist.refl before).append (List.sublist_cons_self ..)

theorem Kernel.exists_mem_add (rule : Rule) (rules : Rules) :
    ∃ mask priority, { rule with mask := mask, priority := priority } ∈ kernel.add rule rules := by
  obtain ⟨before, after, mask, priority, _, same⟩ := kernel.add_eq rule rules
  exact ⟨mask, priority, same ▸ List.mem_append_right _ List.mem_cons_self⟩

/-- The main rules are not those of the marks. -/
theorem Kernel.filter_add {rule : Rule} (mark : isMainRule rule = false) (rules : Rules) :
    (kernel.add rule rules).filter isMainRule = rules.filter isMainRule := by
  obtain ⟨before, after, mask, priority, split, same⟩ := kernel.add_eq rule rules
  have placed : ¬ isMainRule { rule with mask := mask, priority := priority } = true := by
    have same : isMainRule { rule with mask := mask, priority := priority } = isMainRule rule := rfl
    rw [same, mark]
    exact Bool.false_ne_true
  rw [same, split, List.filter_append, List.filter_cons_of_neg placed, ← List.filter_append]

theorem Marked.refl (rules : Rules) : Marked [] rules rules :=
  ⟨List.Sublist.refl rules, rfl, fun _ mem => .inl mem, fun _ none => absurd none List.not_mem_nil⟩

theorem Covered.mono {before after : Rules} {info : RouteRuleInfo} (covered : Covered before info)
    (kept : before.Sublist after) : Covered after info := by
  obtain ⟨rule, mem, same⟩ := covered
  exact ⟨rule, kept.subset mem, same⟩

/-- An interface that has its rule. -/
theorem Marked.skip {info : RouteRuleInfo} {infos : List RouteRuleInfo} {before after : Rules}
    (marked : Marked infos before after) (covered : Covered before info) :
    Marked (info :: infos) before after := by
  refine ⟨marked.kept, marked.mainRules, marked.added, fun other mem => ?_⟩
  rcases List.mem_cons.mp mem with rfl | mem
  · exact covered.mono marked.kept
  · exact marked.covered other mem

/-- An interface that gets its rule. -/
theorem Marked.add {info : RouteRuleInfo} {infos : List RouteRuleInfo} {before after : Rules}
    {priority : Int} (uncovered : ¬ Covered before info)
    (marked : Marked infos (kernel.add (Manager.fwMarkRule info priority) before) after) :
    Marked (info :: infos) before after := by
  have placed : before.Sublist (kernel.add (Manager.fwMarkRule info priority) before) :=
    kernel.sublist_add ..
  have mark : isMainRule (Manager.fwMarkRule info priority) = false := by
    simp [isMainRule, Manager.fwMarkRule]
  refine ⟨placed.trans marked.kept, marked.mainRules.trans (Kernel.filter_add mark before),
    fun rule mem => ?_, fun other mem => ?_⟩
  · rcases marked.added rule mem with earlier | added
    · rcases Kernel.mem_add earlier with old | ⟨mask, priority, rfl⟩
      · exact .inl old
      · refine .inr fun other same covered => uncovered ?_
        obtain ⟨r, listed, mark, table⟩ := covered
        exact ⟨r, listed, same.1.symm.trans mark, same.2.symm.trans table⟩
    · exact .inr fun other same covered => added other same (covered.mono placed)
  · rcases List.mem_cons.mp mem with rfl | mem
    · obtain ⟨mask, priority', here⟩ := kernel.exists_mem_add
        (Manager.fwMarkRule other priority) before
      exact ⟨_, marked.kept.subset here, rfl, rfl⟩
    · exact marked.covered other mem

theorem any_matches_iff (info : RouteRuleInfo) (rules : Rules) :
    (rules.any fun r => info.fwMark = r.mark ∧ info.table = r.table) = true ↔
      Covered rules info := by
  simp only [List.any_eq_true, decide_eq_true_eq, Covered, RouteRuleInfo.Matches]

theorem always_setFwMarkRules (family : Family) (infos : List RouteRuleInfo) (host : Host) :
    (Manager.setFwMarkRules family infos).Always (Step kernel) host fun result host' =>
      result = .ok () →
        Marked infos (host.rules family) (host'.rules family) ∧ OnlyFamily family host host' := by
  induction infos generalizing host with
  | nil => exact fun _ => ⟨Marked.refl _, fun _ _ => rfl⟩
  | cons info infos ih =>
    intro answer host₁ listed
    obtain ⟨rfl, read⟩ := listed.list
    cases answer with
    | error err => exact fun failed => by cases failed
    | ok existingRules =>
      obtain rfl := read existingRules rfl
      dsimp only [Program.bind]
      split
      · rename_i known
        refine (ih host₁).mono fun result host' marked ok => ?_
        obtain ⟨marked, only⟩ := marked ok
        exact ⟨marked.skip ((any_matches_iff ..).mp known), only⟩
      · rename_i unknown
        intro answer host₂ added
        rcases added.add with ⟨err, rfl⟩ | ⟨rfl, rfl⟩
        · exact fun failed => by cases failed
        · refine (ih _).mono fun result host' marked ok => ?_
          obtain ⟨marked, only⟩ := marked ok
          rw [Host.add_self] at marked
          refine ⟨marked.add fun covered => unknown ((any_matches_iff ..).mpr covered), ?_⟩
          exact OnlyFamily.trans (Host.add_only _ _ _) only

/-- What is left of the rules when `k` of the main rules are gone, the first ones first. -/
def withoutMain : ℕ → Rules → Rules
  | _, [] => []
  | k, rule :: rules =>
    if isMainRule rule ∧ 0 < k then withoutMain (k - 1) rules else rule :: withoutMain k rules

theorem filter_withoutMain (k : ℕ) (rules : Rules) :
    (withoutMain k rules).filter isMainRule = (rules.filter isMainRule).drop k := by
  induction rules generalizing k with
  | nil => simp [withoutMain]
  | cons rule rules ih =>
    cases main : isMainRule rule with
    | false =>
      have stays : ¬ (isMainRule rule ∧ 0 < k) := fun gone => by simp [main] at gone
      have other : ¬ isMainRule rule = true := by simp [main]
      rw [withoutMain, if_neg stays, List.filter_cons_of_neg other, List.filter_cons_of_neg other]
      exact ih k
    | true =>
      cases k with
      | zero =>
        rw [withoutMain, if_neg (fun gone => Nat.lt_irrefl 0 gone.2),
          List.filter_cons_of_pos main, List.filter_cons_of_pos main, ih 0]
        rfl
      | succ k =>
        rw [withoutMain, if_pos ⟨main, Nat.succ_pos k⟩, List.filter_cons_of_pos main]
        exact ih k

theorem mem_withoutMain_of_other {rule : Rule} (other : isMainRule rule = false) (k : ℕ)
    (rules : Rules) : rule ∈ withoutMain k rules ↔ rule ∈ rules := by
  induction rules generalizing k with
  | nil => exact Iff.rfl
  | cons first rules ih =>
    rw [withoutMain]
    split
    · rename_i gone
      have ne : rule ≠ first := by
        rintro rfl
        exact absurd gone.1 (by simp [other])
      rw [ih, List.mem_cons, or_iff_right ne]
    · rw [List.mem_cons, List.mem_cons, ih]

theorem withoutMain_zero (rules : Rules) : withoutMain 0 rules = rules := by
  induction rules with
  | nil => rfl
  | cons rule rules ih =>
    rw [withoutMain, if_neg (fun gone => Nat.lt_irrefl 0 gone.2), ih]

theorem always_deleteNone (family : Family) (rules : Rules) (host : Host) :
    (Manager.deleteMainRules family 0 rules).Always (Step kernel) host fun _ host' =>
      host' = host := by
  induction rules with
  | nil => exact rfl
  | cons rule rules ih =>
    rw [Manager.deleteMainRules, if_neg (fun gone => Nat.lt_irrefl 0 gone.2)]
    exact ih

theorem always_deleteMainRules (family : Family) (k : ℕ) (rest front : Rules) (host : Host)
    (rules : host.rules family = front ++ rest) (none : ∀ rule ∈ front, isMainRule rule = false) :
    (Manager.deleteMainRules family k rest).Always (Step kernel) host fun result host' =>
      result = .ok () →
        host'.rules family = front ++ withoutMain k rest ∧ OnlyFamily family host host' := by
  induction rest generalizing k front host with
  | nil => exact fun _ => ⟨rules, fun _ _ => rfl⟩
  | cons rule rest ih =>
    by_cases goes : isMainRule rule ∧ 0 < k
    · rw [Manager.deleteMainRules, if_pos goes, withoutMain, if_pos goes]
      intro answer host₁ deleted
      rcases deleted.del with ⟨err, rfl⟩ | ⟨rfl, rfl⟩
      · exact fun failed => by cases failed
      · have absent : rule ∉ front := fun mem => by
          have other := none rule mem
          rw [goes.1] at other
          cases other
        have left : (host.delete family rule).rules family = front ++ rest := by
          rw [Host.delete_self, rules, List.erase_append_right _ absent, List.erase_cons_head]
        refine (ih (k - 1) front _ left none).mono fun result host' ended ok => ?_
        exact ⟨(ended ok).1, OnlyFamily.trans (Host.delete_only _ _ _) (ended ok).2⟩
    · rw [Manager.deleteMainRules, if_neg goes, withoutMain, if_neg goes]
      cases main : isMainRule rule with
      | false =>
        have split : host.rules family = (front ++ [rule]) ++ rest := by
          rw [rules, List.append_assoc, List.singleton_append]
        have others : ∀ r ∈ front ++ [rule], isMainRule r = false := by
          intro r mem
          rcases List.mem_append.mp mem with before | here
          · exact none r before
          · exact List.mem_singleton.mp here ▸ main
        refine (ih k _ host split others).mono fun result host' ended ok => ?_
        refine ⟨(ended ok).1.trans ?_, (ended ok).2⟩
        rw [List.append_assoc, List.singleton_append]
      | true =>
        -- nothing is left to delete
        have zero : k = 0 := by
          by_contra some
          exact goes ⟨main, Nat.pos_of_ne_zero some⟩
        subst zero
        refine (always_deleteNone family rest host).mono fun result host' ended _ => ?_
        rw [ended, withoutMain_zero]
        exact ⟨rules, fun _ _ => rfl⟩

/-- How many main rules the clean-up removes. -/
def removalCount (infos : List RouteRuleInfo) (rules : Rules) : ℕ :=
  if !infos.any RouteRuleInfo.hasDefault then rules.countP isMainRule
  else if rules.countP isMainRule > 1 then rules.countP isMainRule - 1
  else 0

/-- The main rule was added if it is needed and was not there. -/
def WithMain (kernel : Kernel) (infos : List RouteRuleInfo) (before after : Rules) : Prop :=
  if Manager.shouldHaveMainRule infos = true ∧ before.any isMainRule = false then
    ∃ priority, after = kernel.add (Manager.mainRule priority) before
  else after = before

theorem always_setMainRule (manages : m.cfg.core.ignoreMainDefaultRoute = false)
    (infos : List RouteRuleInfo) (family : Family) (host : Host) :
    (m.setMainRule infos family).Always (Step kernel) host fun result host' => result = .ok () →
      WithMain kernel infos (host.rules family) (host'.rules family) ∧
        OnlyFamily family host host' := by
  rw [Manager.setMainRule, manages, if_neg Bool.false_ne_true]
  cases needed : Manager.shouldHaveMainRule infos with
  | false =>
    refine fun _ => ⟨?_, fun _ _ => rfl⟩
    rw [WithMain, if_neg (fun both => by simp [needed] at both)]
  | true =>
    intro answer host₁ listed
    obtain ⟨rfl, read⟩ := listed.list
    cases answer with
    | error err => exact fun failed => by cases failed
    | ok existingRules =>
      obtain rfl := read existingRules rfl
      dsimp only [Program.bind]
      split
      · rename_i there
        refine fun _ => ⟨?_, fun _ _ => rfl⟩
        rw [WithMain, if_neg (fun both => by simp [there] at both)]
      · rename_i missing
        intro answer host₂ added
        rcases added.add with ⟨err, rfl⟩ | ⟨rfl, rfl⟩
        · exact fun failed => by cases failed
        · refine fun _ => ⟨?_, Host.add_only _ _ _⟩
          rw [WithMain, if_pos ⟨needed, Bool.eq_false_iff.mpr missing⟩]
          exact ⟨_, Host.add_self ..⟩

theorem always_cleanupMainRule (manages : m.cfg.core.ignoreMainDefaultRoute = false)
    (infos : List RouteRuleInfo) (family : Family) (host : Host) :
    (m.cleanupMainRule infos family).Always (Step kernel) host fun result host' =>
      result = .ok () →
        host'.rules family =
          withoutMain (removalCount infos (host.rules family)) (host.rules family) ∧
        OnlyFamily family host host' := by
  rw [Manager.cleanupMainRule, manages, if_neg Bool.false_ne_true]
  intro answer host₁ listed
  obtain ⟨rfl, read⟩ := listed.list
  cases answer with
  | error err => exact fun failed => by cases failed
  | ok existingRules =>
    obtain rfl := read existingRules rfl
    exact always_deleteMainRules family _ _ [] host₁ rfl
      fun _ none => absurd none List.not_mem_nil

/-- What a synchronization does to the rules of a family. -/
def Synced (kernel : Kernel) (infos : List RouteRuleInfo) (before after : Rules) : Prop :=
  ∃ marked withMain, Marked infos before marked ∧ WithMain kernel infos marked withMain ∧
    after = withoutMain (removalCount infos withMain) withMain

theorem always_syncFamilyRules (manages : m.cfg.core.ignoreMainDefaultRoute = false)
    (infos : List RouteRuleInfo) (family : Family) (host : Host) :
    (m.syncFamilyRules infos family).Always (Step kernel) host fun result host' =>
      result = .ok () →
        Synced kernel infos (host.rules family) (host'.rules family) ∧
          OnlyFamily family host host' := by
  refine (always_setFwMarkRules family infos host).bind fun result host₁ marked => ?_
  cases result with
  | error err => exact fun failed => by cases failed
  | ok _ =>
    obtain ⟨marked, only₁⟩ := marked rfl
    refine (always_setMainRule manages infos family host₁).bind fun result host₂ main => ?_
    cases result with
    | error err => exact fun failed => by cases failed
    | ok _ =>
      obtain ⟨main, only₂⟩ := main rfl
      refine (always_cleanupMainRule manages infos family host₂).mono
        fun result host₃ cleaned ok => ?_
      obtain ⟨cleaned, only₃⟩ := cleaned ok
      exact ⟨⟨_, _, marked, main, cleaned⟩, OnlyFamily.trans only₁ (OnlyFamily.trans only₂ only₃)⟩

theorem always_syncRouteRules (manages : m.cfg.core.ignoreMainDefaultRoute = false)
    (allRules : Family → List RouteRuleInfo) (families : List Family) (once : families.Nodup)
    (host : Host) :
    (m.syncRouteRules allRules families).Always (Step kernel) host fun result host' =>
      result = .ok () →
        (∀ family ∈ families,
          Synced kernel (allRules family) (host.rules family) (host'.rules family)) ∧
        ∀ family ∉ families, host'.rules family = host.rules family := by
  induction families generalizing host with
  | nil => exact fun _ => ⟨fun _ none => absurd none List.not_mem_nil, fun _ _ => rfl⟩
  | cons family families ih =>
    obtain ⟨later, once⟩ := List.nodup_cons.mp once
    refine (always_syncFamilyRules manages _ family host).bind fun result host₁ synced => ?_
    cases result with
    | error err => exact fun failed => by cases failed
    | ok _ =>
      obtain ⟨synced, only⟩ := synced rfl
      refine (ih once host₁).mono fun result host' rest ok => ?_
      obtain ⟨rest, others⟩ := rest ok
      refine ⟨fun other mem => ?_, fun other absent => ?_⟩
      · rcases List.mem_cons.mp mem with rfl | mem
        · rw [others other later]
          exact synced
        · have ne : other ≠ family := fun same => later (same ▸ mem)
          rw [← only other ne]
          exact rest other mem
      · obtain ⟨ne, absent⟩ := List.ne_and_not_mem_of_not_mem_cons absent
        rw [others other absent, only other ne]

theorem any_main_iff (rules : Rules) :
    rules.any isMainRule = false ↔ rules.filter isMainRule = [] := by
  rw [List.any_eq_false, List.filter_eq_nil_iff]

/-- The last main rule stays. -/
theorem filter_cleaned_of_default {infos : List RouteRuleInfo}
    (default : infos.any RouteRuleInfo.hasDefault = true) (rules : Rules) :
    (withoutMain (removalCount infos rules) rules).filter isMainRule =
      (rules.filter isMainRule).getLast?.toList := by
  rw [filter_withoutMain, removalCount, default, if_neg (by decide), List.countP_eq_length_filter]
  generalize rules.filter isMainRule = mains
  rcases mains with _ | ⟨first, _ | ⟨second, rest⟩⟩
  · rfl
  · rfl
  · have nonempty : first :: second :: rest ≠ [] := fun none => by cases none
    have several : 1 < (first :: second :: rest).length := by simp
    rw [if_pos several, List.getLast?_eq_some_getLast nonempty, Option.toList_some]
    exact List.drop_length_sub_one nonempty

theorem filter_cleaned_of_none {infos : List RouteRuleInfo}
    (none : infos.any RouteRuleInfo.hasDefault = false) (rules : Rules) :
    (withoutMain (removalCount infos rules) rules).filter isMainRule = [] := by
  rw [filter_withoutMain, removalCount, none, if_pos (by decide), List.countP_eq_length_filter,
    List.drop_length]

theorem hasDefault_of_shouldHaveMainRule {infos : List RouteRuleInfo}
    (needed : Manager.shouldHaveMainRule infos = true) :
    infos.any RouteRuleInfo.hasDefault = true := by
  obtain ⟨info, mem, both⟩ := List.any_eq_true.mp needed
  exact List.any_eq_true.mpr ⟨info, mem, (of_decide_eq_true both).1⟩

theorem WithMain.mem_iff {infos : List RouteRuleInfo} {before after : Rules}
    (withMain : WithMain kernel infos before after) {rule : Rule} (other : isMainRule rule = false) :
    rule ∈ after ↔ rule ∈ before := by
  rw [WithMain] at withMain
  split at withMain
  · obtain ⟨priority, rfl⟩ := withMain
    refine ⟨fun mem => ?_, fun mem => (kernel.sublist_add ..).subset mem⟩
    rcases Kernel.mem_add mem with mem | ⟨mask, priority', rfl⟩
    · exact mem
    · simp [isMainRule, Manager.mainRule] at other
  · rw [withMain]

theorem WithMain.eq_of_none {infos : List RouteRuleInfo} {before after : Rules}
    (withMain : WithMain kernel infos before after)
    (there : Manager.shouldHaveMainRule infos = true → before.filter isMainRule ≠ []) :
    after = before := by
  rwa [WithMain, if_neg fun both => there both.1 ((any_main_iff before).mp both.2)] at withMain

/-- The main rule that was missing. -/
theorem WithMain.filter_of_missing {infos : List RouteRuleInfo} {before after : Rules}
    (withMain : WithMain kernel infos before after)
    (needed : Manager.shouldHaveMainRule infos = true) (missing : before.filter isMainRule = []) :
    ∃ rule, after.filter isMainRule = [rule] := by
  rw [WithMain, if_pos ⟨needed, (any_main_iff before).mpr missing⟩] at withMain
  obtain ⟨priority, rfl⟩ := withMain
  obtain ⟨front, rest, mask, priority', rfl, same⟩ :=
    kernel.add_eq (Manager.mainRule priority) before
  rw [List.filter_append, List.append_eq_nil_iff] at missing
  have main : isMainRule { Manager.mainRule priority with
      mask := mask, priority := priority' } = true := by
    simp [isMainRule, Manager.mainRule]
  rw [same, List.filter_append, missing.1, List.filter_cons_of_pos main, missing.2]
  exact ⟨_, rfl⟩

namespace Synced

variable {infos : List RouteRuleInfo} {before after : Rules}

/-- Without a default route every main rule goes. -/
theorem mains_of_none (synced : Synced kernel infos before after)
    (none : infos.any RouteRuleInfo.hasDefault = false) : after.filter isMainRule = [] := by
  obtain ⟨marked, withMain, -, -, rfl⟩ := synced
  exact filter_cleaned_of_none none withMain

theorem mains_of_default (synced : Synced kernel infos before after)
    (default : infos.any RouteRuleInfo.hasDefault = true)
    (there : Manager.shouldHaveMainRule infos = true → before.filter isMainRule ≠ []) :
    after.filter isMainRule = (before.filter isMainRule).getLast?.toList := by
  obtain ⟨marked, withMain, marks, main, rfl⟩ := synced
  rw [filter_cleaned_of_default default, main.eq_of_none (marks.mainRules ▸ there),
    marks.mainRules]

theorem mains_of_missing (synced : Synced kernel infos before after)
    (needed : Manager.shouldHaveMainRule infos = true) (missing : before.filter isMainRule = []) :
    ∃ rule, after.filter isMainRule = [rule] := by
  obtain ⟨marked, withMain, marks, main, rfl⟩ := synced
  obtain ⟨rule, one⟩ := main.filter_of_missing needed (marks.mainRules.trans missing)
  rw [filter_cleaned_of_default (hasDefault_of_shouldHaveMainRule needed), one]
  exact ⟨rule, rfl⟩

theorem other_mem (synced : Synced kernel infos before after) :
    ∃ marked, Marked infos before marked ∧
      ∀ rule, isMainRule rule = false → (rule ∈ after ↔ rule ∈ marked) := by
  obtain ⟨marked, withMain, marks, main, rfl⟩ := synced
  refine ⟨marked, marks, fun rule other => ?_⟩
  rw [mem_withoutMain_of_other other, main.mem_iff other]

end Synced

/-- A rule of the interface that a synchronization leaves. -/
def Stays (infos : List RouteRuleInfo) (rules : Rules) (info : RouteRuleInfo) : Prop :=
  (∃ rule ∈ rules, isMainRule rule = false ∧ info.Matches rule) ∨
    infos.any RouteRuleInfo.hasDefault = true ∧
      ∃ rule ∈ (rules.filter isMainRule).getLast?, info.Matches rule

/-- The rules that a synchronization brings in line. -/
structure Settles (infos : List RouteRuleInfo) (rules : Rules) : Prop where
  mainRule : infos.any RouteRuleInfo.hasDefault = true →
    Manager.shouldHaveMainRule infos = false → rules.any isMainRule = false
  kept : ∀ info ∈ infos, Covered rules info → Stays infos rules info

theorem Marked.other_of_uncovered {infos : List RouteRuleInfo} {before marked : Rules}
    (marks : Marked infos before marked) {info : RouteRuleInfo} {rule : Rule} (mem : rule ∈ marked)
    (same : info.Matches rule) (uncovered : ¬ Covered before info) : isMainRule rule = false := by
  by_contra main
  have here : rule ∈ marked.filter isMainRule :=
    List.mem_filter.mpr ⟨mem, Bool.not_eq_false _ ▸ main⟩
  rw [marks.mainRules] at here
  exact uncovered ⟨rule, (List.mem_filter.mp here).1, same⟩

theorem Synced.covered_iff {infos : List RouteRuleInfo} {before after : Rules}
    (synced : Synced kernel infos before after) {info : RouteRuleInfo} (asked : info ∈ infos) :
    Covered after info ↔ (Covered before info → Stays infos before info) := by
  obtain ⟨marked, marks, others⟩ := synced.other_mem
  constructor
  · rintro ⟨rule, mem, same⟩ covered
    cases main : isMainRule rule with
    | false =>
      rcases marks.added rule ((others rule main).mp mem) with old | added
      · exact .inl ⟨rule, old, main, same⟩
      · exact absurd covered (added info same)
    | true =>
      have here : rule ∈ after.filter isMainRule := List.mem_filter.mpr ⟨mem, main⟩
      cases default : infos.any RouteRuleInfo.hasDefault with
      | false =>
        rw [synced.mains_of_none default] at here
        cases here
      | true =>
        by_cases missing : before.filter isMainRule = []
        · -- what covers the interface is no main rule
          obtain ⟨old, listed, matched⟩ := covered
          have other := List.filter_eq_nil_iff.mp missing old listed
          exact .inl ⟨old, listed, Bool.eq_false_iff.mpr other, matched⟩
        · rw [synced.mains_of_default default fun _ => missing, Option.mem_toList] at here
          exact .inr ⟨default, rule, here, same⟩
  · intro stays
    by_cases covered : Covered before info
    · rcases stays covered with ⟨rule, mem, other, same⟩ | ⟨default, rule, last, same⟩
      · exact ⟨rule, (others rule other).mpr (marks.kept.subset mem), same⟩
      · have there : before.filter isMainRule ≠ [] := fun none => by
          rw [none] at last
          cases last
        have here : rule ∈ after.filter isMainRule := by
          rw [synced.mains_of_default default fun _ => there, Option.mem_toList]
          exact last
        exact ⟨rule, (List.mem_filter.mp here).1, same⟩
    · obtain ⟨rule, mem, same⟩ := marks.covered info asked
      have other := marks.other_of_uncovered mem same covered
      exact ⟨rule, (others rule other).mpr mem, same⟩

theorem Synced.mainRules_iff {infos : List RouteRuleInfo} {before after : Rules}
    (synced : Synced kernel infos before after) :
    (after.countP isMainRule = if Manager.shouldHaveMainRule infos then 1 else 0) ↔
      (infos.any RouteRuleInfo.hasDefault = true → Manager.shouldHaveMainRule infos = false →
        before.any isMainRule = false) := by
  rw [List.countP_eq_length_filter, any_main_iff]
  cases needed : Manager.shouldHaveMainRule infos with
  | true =>
    refine iff_of_true ?_ fun _ impossible => by cases impossible
    rw [if_pos rfl]
    by_cases missing : before.filter isMainRule = []
    · obtain ⟨rule, one⟩ := synced.mains_of_missing needed missing
      rw [one, List.length_singleton]
    · rw [synced.mains_of_default (hasDefault_of_shouldHaveMainRule needed) fun _ => missing,
        List.getLast?_eq_some_getLast missing, Option.toList_some, List.length_singleton]
  | false =>
    rw [if_neg Bool.false_ne_true]
    cases default : infos.any RouteRuleInfo.hasDefault with
    | false =>
      rw [synced.mains_of_none default]
      exact iff_of_true rfl fun impossible => by cases impossible
    | true =>
      have there : Manager.shouldHaveMainRule infos = true → before.filter isMainRule ≠ [] :=
        fun impossible => by rw [needed] at impossible; cases impossible
      rw [synced.mains_of_default default there, List.length_eq_zero_iff,
        Option.toList_eq_nil_iff, List.getLast?_eq_none_iff]
      exact ⟨fun none _ _ => none, fun none => none rfl rfl⟩

theorem Synced.inSync_iff {infos : List RouteRuleInfo} {before after : Rules}
    (synced : Synced kernel infos before after) : InSync infos after ↔ Settles infos before :=
  ⟨fun inSync => ⟨synced.mainRules_iff.mp inSync.mainRules,
      fun info asked => (synced.covered_iff asked).mp (inSync.covered info asked)⟩,
    fun settles => ⟨fun info asked => (synced.covered_iff asked).mpr (settles.kept info asked),
      synced.mainRules_iff.mpr settles.mainRule⟩⟩

theorem always_setFwMarkRules_covered (family : Family) (infos : List RouteRuleInfo) (host : Host)
    (covered : ∀ info ∈ infos, Covered (host.rules family) info) :
    (Manager.setFwMarkRules family infos).Always (Step kernel) host fun _ host' =>
      host' = host := by
  induction infos with
  | nil => exact rfl
  | cons info infos ih =>
    intro answer host₁ listed
    obtain ⟨rfl, read⟩ := listed.list
    cases answer with
    | error err => exact rfl
    | ok existingRules =>
      obtain rfl := read existingRules rfl
      have known := (any_matches_iff ..).mpr (covered info List.mem_cons_self)
      dsimp only [Program.bind]
      rw [if_pos known]
      exact ih fun other mem => covered other (List.mem_cons_of_mem _ mem)

theorem always_setMainRule_inSync (infos : List RouteRuleInfo) (family : Family) (host : Host)
    (inSync : InSync infos (host.rules family)) :
    (m.setMainRule infos family).Always (Step kernel) host fun _ host' => host' = host := by
  rw [Manager.setMainRule]
  split
  · exact rfl
  · cases needed : Manager.shouldHaveMainRule infos with
    | false => exact rfl
    | true =>
      have one := inSync.mainRules
      rw [needed, if_pos rfl] at one
      have there : (host.rules family).any isMainRule = true := by
        obtain ⟨rule, mem, main⟩ := List.countP_pos_iff.mp (one ▸ Nat.one_pos)
        exact List.any_eq_true.mpr ⟨rule, mem, main⟩
      intro answer host₁ listed
      obtain ⟨rfl, read⟩ := listed.list
      cases answer with
      | error err => exact rfl
      | ok existingRules =>
        obtain rfl := read existingRules rfl
        dsimp only [Program.bind]
        rw [if_pos there]
        exact rfl

theorem removalCount_inSync {infos : List RouteRuleInfo} {rules : Rules}
    (inSync : InSync infos rules) : removalCount infos rules = 0 := by
  rw [removalCount, inSync.mainRules]
  cases needed : Manager.shouldHaveMainRule infos with
  | true => rw [hasDefault_of_shouldHaveMainRule needed]; rfl
  | false => cases infos.any RouteRuleInfo.hasDefault <;> rfl

theorem always_cleanupMainRule_inSync (infos : List RouteRuleInfo) (family : Family) (host : Host)
    (inSync : InSync infos (host.rules family)) :
    (m.cleanupMainRule infos family).Always (Step kernel) host fun _ host' => host' = host := by
  rw [Manager.cleanupMainRule]
  split
  · exact rfl
  · intro answer host₁ listed
    obtain ⟨rfl, read⟩ := listed.list
    cases answer with
    | error err => exact rfl
    | ok existingRules =>
      obtain rfl := read existingRules rfl
      have deletes : (Manager.deleteMainRules family 0 (host₁.rules family)).Always (Step kernel)
          host₁ fun _ host' => host' = host₁ := always_deleteNone ..
      rwa [← removalCount_inSync inSync] at deletes

theorem always_syncFamilyRules_inSync (infos : List RouteRuleInfo) (family : Family) (host : Host)
    (inSync : InSync infos (host.rules family)) :
    (m.syncFamilyRules infos family).Always (Step kernel) host fun _ host' => host' = host := by
  refine (always_setFwMarkRules_covered family infos host inSync.covered).bind
    fun result host₁ same => ?_
  obtain rfl := same
  cases result with
  | error err => exact rfl
  | ok _ =>
    refine (always_setMainRule_inSync infos family host₁ inSync).bind fun result host₂ same => ?_
    obtain rfl := same
    cases result with
    | error err => exact rfl
    | ok _ => exact always_cleanupMainRule_inSync infos family host₂ inSync

/-- Rules in line with the interfaces stay as they are, also where an operation fails. -/
theorem always_syncRouteRules_inSync (allRules : Family → List RouteRuleInfo)
    (families : List Family) (host : Host)
    (inSync : ∀ family ∈ families, InSync (allRules family) (host.rules family)) :
    (m.syncRouteRules allRules families).Always (Step kernel) host fun _ host' =>
      host' = host := by
  induction families with
  | nil => exact rfl
  | cons family families ih =>
    refine (always_syncFamilyRules_inSync _ family host (inSync family List.mem_cons_self)).bind
      fun result host₁ same => ?_
    obtain rfl := same
    cases result with
    | error err => exact rfl
    | ok _ => exact ih fun other mem => inSync other (List.mem_cons_of_mem _ mem)

/-- What a successful synchronization is for: the rules of each family are as its interfaces ask
for, and the next one neither adds nor deletes a rule. -/
structure Settled (kernel : Kernel) (m : Manager) (allRules : Family → List RouteRuleInfo)
    (families : List Family) (host : Host) : Prop where
  inSync : ∀ family ∈ families, InSync (allRules family) (host.rules family)
  again : ∀ (order : List Family) (faults : ℕ → Option Error), order.Perm families →
    ((m.syncRouteRules allRules order).run kernel faults host).2 = host

/-- A synchronization that succeeds leaves the rules settled exactly if the interfaces with a
default route ask for a main rule where there is one, and none of them has only main rules that
go. -/
theorem syncRouteRules_settled_iff (manages : m.cfg.core.ignoreMainDefaultRoute = false)
    (allRules : Family → List RouteRuleInfo) (families : List Family) (once : families.Nodup)
    (host : Host) (faults : ℕ → Option Error)
    (synced : ((m.syncRouteRules allRules families).run kernel faults host).1 = .ok ()) :
    Settled kernel m allRules families
        ((m.syncRouteRules allRules families).run kernel faults host).2 ↔
      ∀ family ∈ families, Settles (allRules family) (host.rules family) := by
  have each := (run_of_always faults
    (always_syncRouteRules manages allRules families once host) synced).1
  refine ⟨fun settled family mem => ?_, fun settles => ?_⟩
  · exact (each family mem).inSync_iff.mp (settled.inSync family mem)
  · have inSync := fun family mem => (each family mem).inSync_iff.mpr (settles family mem)
    refine ⟨inSync, fun order faults' perm => ?_⟩
    refine run_of_always faults' (always_syncRouteRules_inSync allRules order _ ?_)
    exact fun family mem => inSync family (perm.mem_iff.mp mem)

/-- An interface with a default route, for both families. -/
def defaultRoute (fwMark : ℕ) (table : Int) : Family → List RouteRuleInfo :=
  fun _ => [⟨"wg0", fwMark, table, true⟩]

/-- The rules of a host before the portal has run. -/
theorem plainHost_settled :
    (((Manager.mk defaultConfig).syncRouteRules (defaultRoute 51820 51820) [.v4, .v6]).run
      byPriority (fun _ => none) plainHost).1 = .ok () ∧
    Settled byPriority ⟨defaultConfig⟩ (defaultRoute 51820 51820) [.v4, .v6]
      (((Manager.mk defaultConfig).syncRouteRules (defaultRoute 51820 51820) [.v4, .v6]).run
        byPriority (fun _ => none) plainHost).2 := by
  refine ⟨rfl, (syncRouteRules_settled_iff rfl (defaultRoute 51820 51820) [.v4, .v6] (by decide)
    plainHost (fun _ => none) rfl).mpr fun family _ => ⟨fun _ _ => ?_, ?_⟩⟩
  · exact rfl
  · rintro info asked ⟨rule, mem, mark, table⟩
    obtain rfl := List.mem_singleton.mp asked
    have unmarked : ∀ r ∈ plainHost.rules family, r.mark = 0 := List.forall_mem_cons.mpr
      ⟨rfl, List.forall_mem_cons.mpr ⟨rfl, List.forall_mem_singleton.mpr rfl⟩⟩
    rw [unmarked rule mem] at mark
    cases mark

/-- The interface was moved to the main table: its former main rule stays. -/
theorem movedToMain_unsettled :
    (((Manager.mk defaultConfig).syncRouteRules (defaultRoute 51820 254) [.v4, .v6]).run
      byPriority (fun _ => none)
      (((Manager.mk defaultConfig).syncRouteRules (defaultRoute 51820 51820) [.v4, .v6]).run
        byPriority (fun _ => none) plainHost).2).1 = .ok () ∧
    ¬ Settled byPriority ⟨defaultConfig⟩ (defaultRoute 51820 254) [.v4, .v6]
      (((Manager.mk defaultConfig).syncRouteRules (defaultRoute 51820 254) [.v4, .v6]).run
        byPriority (fun _ => none)
        (((Manager.mk defaultConfig).syncRouteRules (defaultRoute 51820 51820) [.v4, .v6]).run
          byPriority (fun _ => none) plainHost).2).2 := by
  refine ⟨rfl, fun settled => ?_⟩
  have left := (settled.inSync .v4 List.mem_cons_self).mainRules
  revert left
  decide +kernel

end WgPortal.Route
