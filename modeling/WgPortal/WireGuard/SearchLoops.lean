import WgPortal.Config.Duration
import WgPortal.Library.Search
import WgPortal.Route.Rules

/-! The loops that look for a value that no interface or rule has yet. -/

namespace WgPortal.WireGuard.SearchLoops

open Domain Library Config Route
open Library.NetIP (digitVal_digitChar ofDigits_toDigits)

/-- A slice of records, each of which takes at least eight bytes of the address space. -/
structure Slice (α : Type) where
  elems : List α
  fits : elems.length < 2 ^ 61

/-- One of the records has the value. -/
def listed {ν κ : Type} [DecidableEq κ] (records : Slice ν) (value : ν → κ) (k : κ) : Bool :=
  records.elems.any fun r => value r = k

/-- `n += d` -/
def advance (d n : Int) : Int := wrapInt64 (n + d)

/-- `n++` -/
def increment : Int → Int := advance 1

/-- `n--` -/
def decrement : Int → Int := advance (-1)

/-- `fmt.Sprintf("%s%d", namePrefix, nameSuffix)` -/
def interfaceName (nameSuffix : Int) : InterfaceIdentifier := "wg" ++ toString nameSuffix

def nameConflict (existingInterfaces : Slice Interface) (nameSuffix : Int) : Bool :=
  listed existingInterfaces Interface.identifier (interfaceName nameSuffix)

/-- Nothing is returned if the loop goes on after these steps. -/
def getNewInterfaceName (steps : ℕ) (answer : Except Error (Slice Interface)) :
    Option (Except Error InterfaceIdentifier) :=
  match answer with
  | .error err => some (.error err)
  | .ok existingInterfaces =>
    (search increment (nameConflict existingInterfaces) steps 0).map fun nameSuffix =>
      .ok (interfaceName nameSuffix)

def portConflict (existingInterfaces : Slice Interface) (port : Int) : Bool :=
  listed existingInterfaces Interface.listenPort port

def portSpaceExhausted : Error := .other "port space exhausted"

def getFreshListenPort (steps : ℕ) (startListenPort : Int)
    (answer : Except Error (Slice Interface)) : Option (Except Error Int) :=
  match answer with
  | .error err => some (.error err)
  | .ok existingInterfaces =>
    (search increment (portConflict existingInterfaces) steps startListenPort).map fun port =>
      if 65535 < port then .error portSpaceExhausted else .ok port

def priorityTaken (existingRules : Slice Rule) (prio : Int) : Bool :=
  listed existingRules Rule.priority prio

def getMainRulePriority (m : Route.Manager) (steps : ℕ) (existingRules : Slice Rule) : Option Int :=
  search increment (priorityTaken existingRules) steps m.cfg.advanced.rulePrioOffset

def getRulePriority (steps : ℕ) (existingRules : Slice Rule) : Option Int :=
  search decrement (priorityTaken existingRules) steps 32700

/-- All loops end, each with the first value in its direction that is free. -/
structure EndFree (m : Route.Manager) (startListenPort : Int)
    (existingInterfaces : Slice Interface) (existingRules : Slice Rule) : Prop where
  name : ∃ steps, ∃ nameSuffix : ℕ,
    getNewInterfaceName steps (.ok existingInterfaces) = some (.ok (interfaceName nameSuffix)) ∧
    (∀ iface ∈ existingInterfaces.elems, iface.identifier ≠ interfaceName nameSuffix) ∧
    ∀ less < nameSuffix, ∃ iface ∈ existingInterfaces.elems, iface.identifier = interfaceName less
  port : ∃ steps port,
    getFreshListenPort steps startListenPort (.ok existingInterfaces) =
      some (if 65535 < port then .error portSpaceExhausted else .ok port) ∧
    FirstFree increment (portConflict existingInterfaces) startListenPort port
  inRange : 1 ≤ startListenPort → startListenPort ≤ 65535 → ∀ steps port,
    getFreshListenPort steps startListenPort (.ok existingInterfaces) = some (.ok port) →
      1 ≤ port ∧ port ≤ 65535
  mainRule : ∃ steps prio, getMainRulePriority m steps existingRules = some prio ∧
    FirstFree increment (priorityTaken existingRules) m.cfg.advanced.rulePrioOffset prio
  rule : ∃ steps prio, getRulePriority steps existingRules = some prio ∧
    FirstFree (· - 1) (priorityTaken existingRules) 32700 prio

theorem listed_iff {ν κ : Type} [DecidableEq κ] {records : Slice ν} {value : ν → κ} {k : κ} :
    listed records value k = true ↔ ∃ r ∈ records.elems, value r = k := by
  simp [listed]

theorem advance_iterate (d start : Int) (k : ℕ) :
    (advance d)^[k + 1] start = wrapInt64 (start + (k + 1 : ℕ) * d) := by
  induction k with
  | zero => rw [Nat.zero_add, Function.iterate_one, advance, Nat.cast_one, one_mul]
  | succ k ih =>
    have next : ((k + 1 + 1 : ℕ) : Int) * d = (k + 1 : ℕ) * d + d := by
      rw [Nat.cast_succ (k + 1), add_mul, one_mul]
    rw [Function.iterate_succ_apply', ih, advance, next]
    simp only [wrapInt64]
    omega

/-- Before `2 ^ 64` steps up or down, no value comes back. -/
theorem advance_distinct {d : Int} (unit : d = 1 ∨ d = -1) (start : Int) {i j : ℕ} (less : i < j)
    (small : j < 2 ^ 61) : (advance d)^[i] start ≠ (advance d)^[j] start := by
  obtain ⟨j, rfl⟩ := Nat.exists_eq_succ_of_ne_zero (Nat.ne_zero_of_lt less)
  rw [advance_iterate]
  cases i with
  | zero =>
    simp only [Function.iterate_zero, id_eq, wrapInt64]
    rcases unit with rfl | rfl <;> omega
  | succ i =>
    rw [advance_iterate]
    simp only [wrapInt64]
    rcases unit with rfl | rfl <;> omega

/-- As long as there is no overflow, the values are those of plain numbers. -/
theorem advance_iterate_eq {d start : Int} {k : ℕ} (range : -2 ^ 63 ≤ start + k * d)
    (range' : start + k * d < 2 ^ 63) : (advance d)^[k] start = start + k * d := by
  cases k with
  | zero => simp
  | succ k =>
    rw [advance_iterate]
    simp only [wrapInt64]
    omega

/-- A loop that goes up or down through a slice of records ends. -/
theorem exists_search_advance {ν κ : Type} [DecidableEq κ] (records : Slice ν) (value : ν → κ)
    (key : Int → κ) (d start : Int)
    (distinct : ∀ i j, i < j → j < 2 ^ 61 →
      key ((advance d)^[i] start) ≠ key ((advance d)^[j] start)) :
    ∃ n < 2 ^ 61, search (advance d) (fun v => listed records value (key v))
        (records.elems.length + 1) start = some ((advance d)^[n] start) ∧
      listed records value (key ((advance d)^[n] start)) = false ∧
      ∀ k < n, listed records value (key ((advance d)^[k] start)) = true := by
  have fits := records.fits
  have same : ∀ v, listed records value (key v) = decide (key v ∈ records.elems.map value) := by
    intro v
    rw [Bool.eq_iff_iff, listed_iff, decide_eq_true_eq, List.mem_map]
  have apart : ∀ i j, i < j → j ≤ (records.elems.map value).length →
      key ((advance d)^[i] start) ≠ key ((advance d)^[j] start) := by
    intro i j less small
    rw [List.length_map] at small
    exact distinct i j less (by omega)
  obtain ⟨n, bound, found, rest⟩ := exists_search start key (records.elems.map value) same apart
  rw [List.length_map] at bound found
  exact ⟨n, by omega, found, rest⟩

theorem interfaceName_injective {m n : ℕ} (same : interfaceName m = interfaceName n) : m = n := by
  have texts := congrArg String.toList same
  rw [interfaceName, interfaceName, String.toList_append, String.toList_append] at texts
  have digits : Nat.toDigits 10 m = Nat.toDigits 10 n := by
    rw [← Nat.toList_repr, ← Nat.toList_repr]
    exact List.append_cancel_left texts
  have value := ofDigits_toDigits (by decide) digitVal_digitChar m
  rw [digits, ofDigits_toDigits (by decide) digitVal_digitChar] at value
  exact (Option.some.inj value).symm

theorem increment_zero {k : ℕ} (small : k < 2 ^ 61) : increment^[k] 0 = k := by
  have plain : (advance 1)^[k] 0 = 0 + k * 1 := advance_iterate_eq (by omega) (by omega)
  rw [increment, plain, zero_add, mul_one]

theorem name_ends (existingInterfaces : Slice Interface) : ∃ steps, ∃ nameSuffix : ℕ,
    getNewInterfaceName steps (.ok existingInterfaces) = some (.ok (interfaceName nameSuffix)) ∧
    (∀ iface ∈ existingInterfaces.elems, iface.identifier ≠ interfaceName nameSuffix) ∧
    ∀ less < nameSuffix,
      ∃ iface ∈ existingInterfaces.elems, iface.identifier = interfaceName less := by
  have distinct : ∀ i j, i < j → j < 2 ^ 61 →
      interfaceName (increment^[i] 0) ≠ interfaceName (increment^[j] 0) := by
    intro i j less small same
    rw [increment_zero small, increment_zero (by omega)] at same
    exact absurd (interfaceName_injective same) (Nat.ne_of_lt less)
  obtain ⟨n, small, found, free, before⟩ :=
    exists_search_advance existingInterfaces Interface.identifier interfaceName 1 0 distinct
  have value := increment_zero small
  rw [increment] at value
  rw [value] at found free
  refine ⟨existingInterfaces.elems.length + 1, n, ?_, fun iface among named => ?_,
    fun less below => ?_⟩
  · exact Option.map_eq_some_iff.mpr ⟨n, found, rfl⟩
  · exact absurd (listed_iff.mpr ⟨iface, among, named⟩) (by rw [free]; decide)
  · have taken := before less below
    have lower : (advance 1)^[less] 0 = less := increment_zero (by omega)
    rw [lower] at taken
    exact listed_iff.mp taken

/-- A loop over the priorities of rules, or over the ports of interfaces -/
theorem number_ends {ν : Type} {d : Int} (unit : d = 1 ∨ d = -1) (records : Slice ν)
    (value : ν → Int) (start : Int) :
    ∃ n < 2 ^ 61, search (advance d) (listed records value) (records.elems.length + 1) start =
        some ((advance d)^[n] start) ∧
      listed records value ((advance d)^[n] start) = false ∧
      ∀ k < n, listed records value ((advance d)^[k] start) = true :=
  exists_search_advance records value id d start fun _ _ => advance_distinct unit start

theorem port_ends (startListenPort : Int) (existingInterfaces : Slice Interface) :
    ∃ steps port,
      getFreshListenPort steps startListenPort (.ok existingInterfaces) =
        some (if 65535 < port then .error portSpaceExhausted else .ok port) ∧
      FirstFree increment (portConflict existingInterfaces) startListenPort port := by
  obtain ⟨n, _, found, free, before⟩ :=
    number_ends (.inl rfl) existingInterfaces Interface.listenPort startListenPort
  exact ⟨_, _, Option.map_eq_some_iff.mpr ⟨_, found, rfl⟩, n, rfl, free, before⟩

/-- Whatever the loop returns, it passed less ports than there are interfaces. -/
theorem port_inRange {startListenPort : Int} (low : 1 ≤ startListenPort)
    (high : startListenPort ≤ 65535) {existingInterfaces : Slice Interface} {steps : ℕ} {port : Int}
    (returned : getFreshListenPort steps startListenPort (.ok existingInterfaces) =
      some (.ok port)) : 1 ≤ port ∧ port ≤ 65535 := by
  obtain ⟨last, found, same⟩ := Option.map_eq_some_iff.mp returned
  obtain ⟨n, small, _, free, before⟩ :=
    number_ends (.inl rfl) existingInterfaces Interface.listenPort startListenPort
  have first : FirstFree increment (portConflict existingInterfaces) startListenPort
      ((advance 1)^[n] startListenPort) := ⟨n, rfl, free, before⟩
  have value : (advance 1)^[n] startListenPort = startListenPort + n * 1 :=
    advance_iterate_eq (by omega) (by omega)
  have reached := (FirstFree.of_search found).unique first
  rw [value] at reached
  by_cases above : 65535 < last
  · rw [if_pos above] at same
    cases same
  · rw [if_neg above] at same
    obtain rfl := Except.ok.inj same
    omega

theorem mainRule_ends (m : Route.Manager) (existingRules : Slice Rule) : ∃ steps prio,
    getMainRulePriority m steps existingRules = some prio ∧
    FirstFree increment (priorityTaken existingRules) m.cfg.advanced.rulePrioOffset prio := by
  obtain ⟨n, _, found, free, before⟩ :=
    number_ends (.inl rfl) existingRules Rule.priority m.cfg.advanced.rulePrioOffset
  exact ⟨_, _, found, n, rfl, free, before⟩

theorem add_iterate (d start : Int) (k : ℕ) : (· + d)^[k] start = start + k * d := by
  induction k with
  | zero => simp
  | succ k ih => rw [Function.iterate_succ_apply', ih, Nat.cast_succ, add_mul, one_mul, add_assoc]

/-- Without an overflow, a loop goes through plain numbers. -/
theorem plain_ends {ν : Type} {d : Int} (unit : d = 1 ∨ d = -1) (start : Int)
    (low : -2 ^ 62 ≤ start) (high : start < 2 ^ 62) (records : Slice ν) (value : ν → Int) :
    ∃ v, search (advance d) (listed records value) (records.elems.length + 1) start = some v ∧
      search (· + d) (listed records value) (records.elems.length + 1) start = some v := by
  obtain ⟨_, _, found, _⟩ := number_ends unit records value start
  refine ⟨_, found, ?_⟩
  obtain ⟨n, less, same, free, before⟩ := search_eq_some.mp found
  have fits := records.fits
  have plain : ∀ k ≤ n, (advance d)^[k] start = (· + d)^[k] start := by
    intro k bound
    rw [add_iterate]
    rcases unit with rfl | rfl <;> exact advance_iterate_eq (by omega) (by omega)
  refine search_eq_some.mpr ⟨n, less, same.trans (plain n le_rfl), free, fun k below => ?_⟩
  rw [← plain k (by omega)]
  exact before k below

theorem rule_ends (existingRules : Slice Rule) : ∃ steps prio,
    getRulePriority steps existingRules = some prio ∧
    FirstFree (· - 1) (priorityTaken existingRules) 32700 prio := by
  obtain ⟨prio, found, plain⟩ :=
    plain_ends (.inr rfl) 32700 (by decide) (by decide) existingRules Rule.priority
  exact ⟨_, prio, found, FirstFree.of_search plain⟩

theorem freshPriority_of_search {step prio : Int} {rules : Slice Rule} {steps : ℕ} {v : Int}
    (found : search (· + step) (priorityTaken rules) steps prio = some v) :
    freshPriority step rules.elems steps prio = v := by
  induction steps generalizing prio with
  | zero => cases found
  | succ steps ih =>
    rw [search] at found
    rw [freshPriority]
    by_cases taken : priorityTaken rules prio = true
    · rw [if_pos taken] at found
      exact (if_pos taken).trans (ih found)
    · rw [if_neg taken] at found
      exact (if_neg taken).trans (Option.some.inj found)

/-- The steps of the route manager are enough, and its numbers do not overflow. -/
theorem getRulePriority_eq (existingRules : Slice Rule) :
    getRulePriority (existingRules.elems.length + 1) existingRules =
      some (Route.Manager.getRulePriority existingRules.elems) := by
  obtain ⟨prio, found, plain⟩ :=
    plain_ends (.inr rfl) 32700 (by decide) (by decide) existingRules Rule.priority
  exact found.trans (congrArg some (freshPriority_of_search plain).symm)

theorem getMainRulePriority_eq (m : Route.Manager)
    (low : -2 ^ 62 ≤ m.cfg.advanced.rulePrioOffset) (high : m.cfg.advanced.rulePrioOffset < 2 ^ 62)
    (existingRules : Slice Rule) :
    getMainRulePriority m (existingRules.elems.length + 1) existingRules =
      some (m.getMainRulePriority existingRules.elems) := by
  obtain ⟨prio, found, plain⟩ := plain_ends (.inl rfl) _ low high existingRules Rule.priority
  exact found.trans (congrArg some (freshPriority_of_search plain).symm)

end WgPortal.WireGuard.SearchLoops
