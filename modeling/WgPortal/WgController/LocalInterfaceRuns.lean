import WgPortal.Library.Fallible
import WgPortal.WgController.LocalInterfaces
import WgPortal.WgController.Plain

/-! What saving an interface makes of the interfaces of the node, when any operation may fail. -/

namespace WgPortal.WgController.LocalInterfaces

open Domain Library Program
open Library.Net (IPNet prefixOf shortNet Mapped unmapped prefixOf_ofPrefix prefixOf_shortNet)

variable {w : Wgtypes} {kernel : Kernel}

/-- An operation that may fail -/
def Step (kernel : Kernel) (op : LocalOp) (host : Host w) (answer : op.Res) (after : Host w) :
    Prop :=
  ∃ fault, op.exec kernel fault host = (answer, after)

/-- What saving the interface `i` asks for -/
inductive Allowed (i : Interface) : LocalOp → Prop
  | device : Allowed i (.device i.identifier)
  | linkByName : Allowed i (.linkByName i.identifier)
  | addrList : Allowed i (.addrList i.identifier)
  | linkAdd : Allowed i (.linkAdd i.identifier)
  | linkSetMTU (mtu : Int) (some : i.mtu ≠ 0) : Allowed i (.linkSetMTU i.identifier mtu)
  | addrReplace {c : Cidr} (wanted : c ∈ i.addresses) :
    Allowed i (.addrReplace i.identifier (Cidr.ipNet c))
  | addrDel (addr : IPNet) : Allowed i (.addrDel i.identifier addr)
  | linkSetUp : Allowed i (.linkSetUp i.identifier)
  | linkSetDown : Allowed i (.linkSetDown i.identifier)
  | configureDevice (cfg : DeviceConfig)
    (mark : i.firewallMark = 0 → cfg.firewallMark = none) :
    Allowed i (.configureDevice i.identifier cfg)

/-- What saving the interface never changes of its link -/
structure Kept (i : Interface) (old new : Link w) : Prop where
  device : new.device = old.device
  mtu : i.mtu = 0 → new.mtu = old.mtu
  mark : i.firewallMark = 0 → new.firewallMark = old.firewallMark
  addresses : ∀ b ∈ new.addresses, b ∈ old.addresses ∨ b ∈ i.addresses

/-- The interface is the only one that is touched, and is not deleted. -/
structure Frame (kernel : Kernel) (i : Interface) (host after : Host w) : Prop where
  others : ∀ name, name ≠ i.identifier → after name = host name
  stays : host i.identifier ≠ none → after i.identifier ≠ none
  kept : Kept i ((host i.identifier).getD kernel.fresh) ((after i.identifier).getD kernel.fresh)

variable {i : Interface} {old new newer : Link w} {host after later : Host w} {op : LocalOp}

theorem Kept.refl (i : Interface) (link : Link w) : Kept i link link :=
  ⟨rfl, fun _ => rfl, fun _ => rfl, fun _ mem => .inl mem⟩

theorem Kept.trans (first : Kept i old new) (second : Kept i new newer) : Kept i old newer where
  device := second.device.trans first.device
  mtu zero := (second.mtu zero).trans (first.mtu zero)
  mark zero := (second.mark zero).trans (first.mark zero)
  addresses b mem := (second.addresses b mem).elim (first.addresses b) .inr

theorem Frame.refl (kernel : Kernel) (i : Interface) (host : Host w) : Frame kernel i host host :=
  ⟨fun _ _ => rfl, id, .refl i _⟩

theorem Frame.trans (first : Frame kernel i host after) (second : Frame kernel i after later) :
    Frame kernel i host later :=
  ⟨fun name other => (second.others name other).trans (first.others name other),
    fun found => second.stays (first.stays found), first.kept.trans second.kept⟩

theorem Step.cases {answer : op.Res} (step : Step kernel op host answer after) :
    (∃ err, answer = .error err ∧ after = host) ∨
      ∃ v link, answer = .ok v ∧ op.outcome kernel (host op.name) = .ok (v, link) ∧
        after = Function.update host op.name link := by
  obtain ⟨fault, run⟩ := step
  cases fault with
  | some text =>
    obtain ⟨rfl, rfl⟩ := Prod.mk.inj run
    exact .inl ⟨_, rfl, rfl⟩
  | none =>
    cases result : op.outcome kernel (host op.name) with
    | error err =>
      simp only [LocalOp.exec, result] at run
      obtain ⟨rfl, rfl⟩ := Prod.mk.inj run
      exact .inl ⟨err, rfl, rfl⟩
    | ok ended =>
      obtain ⟨v, link⟩ := ended
      simp only [LocalOp.exec, result] at run
      obtain ⟨rfl, rfl⟩ := Prod.mk.inj run
      exact .inr ⟨v, link, rfl, rfl, rfl⟩

theorem Allowed.name_eq (allowed : Allowed i op) : op.name = i.identifier := by
  cases allowed <;> rfl

theorem onLink_kept (allowed : Allowed i op) {v : op.Val} {link : Option (Link w)}
    (result : op.onLink kernel old = .ok (v, link)) : ∃ new, link = some new ∧ Kept i old new := by
  cases allowed with
  | device | linkByName | addrList =>
    cases result
    exact ⟨old, rfl, .refl i old⟩
  | linkAdd => cases result
  | linkSetMTU mtu positive =>
    cases result
    exact ⟨_, rfl, rfl, fun zero => absurd zero positive, fun _ => rfl, fun _ mem => .inl mem⟩
  | @addrReplace c wanted =>
    have asked : prefixOf (Cidr.ipNet c) = some c := prefixOf_ofPrefix c
    rw [LocalOp.onLink, asked] at result
    cases result
    refine ⟨_, rfl, rfl, fun _ => rfl, fun _ => rfl, fun b mem => ?_⟩
    rcases kernel.mem_of_replace mem with there | rfl
    · exact .inl there
    · exact .inr wanted
  | addrDel addr =>
    rw [LocalOp.onLink] at result
    split at result
    · cases result
    · split at result
      · cases result
        exact ⟨_, rfl, rfl, fun _ => rfl, fun _ => rfl,
          fun b mem => .inl (kernel.mem_of_delete mem).1⟩
      · cases result
  | linkSetUp | linkSetDown =>
    cases result
    exact ⟨_, rfl, rfl, fun _ => rfl, fun _ => rfl, fun _ mem => .inl mem⟩
  | configureDevice cfg mark =>
    cases result
    refine ⟨_, rfl, rfl, fun _ => rfl, fun zero => ?_, fun _ mem => .inl mem⟩
    rw [mark zero]
    rfl

theorem outcome_kept (allowed : Allowed i op) {found link : Option (Link w)} {v : op.Val}
    (result : op.outcome kernel found = .ok (v, link)) :
    ∃ new, link = some new ∧ Kept i (found.getD kernel.fresh) new := by
  cases found with
  | none =>
    cases allowed with
    | linkAdd =>
      cases result
      exact ⟨_, rfl, .refl i _⟩
    | _ => cases result
  | some old => exact onLink_kept allowed result

theorem Step.frame {answer : op.Res} (step : Step kernel op host answer after)
    (allowed : Allowed i op) : Frame kernel i host after := by
  rcases step.cases with ⟨err, -, rfl⟩ | ⟨v, link, -, result, rfl⟩
  · exact .refl kernel i after
  · rw [allowed.name_eq] at result ⊢
    obtain ⟨new, rfl, kept⟩ := outcome_kept allowed result
    refine ⟨fun name other => Function.update_of_ne other _ _, fun _ => ?_, ?_⟩
    · rw [Function.update_self]
      exact Option.some_ne_none new
    · rw [Function.update_self]
      exact kept

/-- Whatever fails, only the interface is touched. -/
theorem always_frame {α : Type} {prog : LocalProgram α} (uses : prog.Uses (Allowed i))
    (host : Host w) : prog.Always (Step kernel) host fun _ t => Frame kernel i host t := by
  refine uses.always (fun op s answer t allowed frame step => ?_) (.refl kernel i host)
  exact frame.trans (step.frame allowed)

section Uses

theorem uses_getInterface : (getInterface i.identifier).Uses (Allowed i) := by
  refine ⟨.device, fun answer => ?_⟩
  cases answer with
  | error err => trivial
  | ok device =>
    refine ⟨.linkByName, fun answer => ?_⟩
    cases answer with
    | error err => trivial
    | ok attrs =>
      refine ⟨.addrList, fun answer => ?_⟩
      cases answer with
      | error err => trivial
      | ok addresses => trivial

theorem uses_getOrCreateInterface : (getOrCreateInterface i.identifier).Uses (Allowed i) := by
  refine uses_getInterface.bind fun r => ?_
  cases r with
  | ok pi => trivial
  | error err =>
    dsimp only
    split
    · trivial
    · refine ⟨.linkAdd, fun answer => ?_⟩
      cases answer with
      | error err => trivial
      | ok _ => exact uses_getInterface

theorem uses_replaceAddresses {addresses : List Cidr} (wanted : ∀ c ∈ addresses, c ∈ i.addresses) :
    (replaceAddresses i.identifier addresses).Uses (Allowed i) := by
  induction addresses with
  | nil => trivial
  | cons c addresses ih =>
    refine ⟨.addrReplace (wanted c List.mem_cons_self), fun answer => ?_⟩
    cases answer with
    | error err => trivial
    | ok _ => exact ih fun c mem => wanted c (List.mem_cons_of_mem _ mem)

theorem uses_removeAddresses (rawAddresses : List IPNet) :
    (removeAddresses i.identifier i.addresses rawAddresses).Uses (Allowed i) := by
  induction rawAddresses with
  | nil => trivial
  | cons rawAddr rawAddresses ih =>
    rw [removeAddresses]
    split
    · exact ih
    · refine ⟨.addrDel rawAddr, fun answer => ?_⟩
      cases answer with
      | error err => trivial
      | ok _ => exact ih

theorem uses_setMtu : (setMtu i.identifier i.mtu).Uses (Allowed i) := by
  unfold setMtu
  split
  · rename_i positive
    refine ⟨.linkSetMTU i.mtu positive, fun answer => ?_⟩
    cases answer with
    | error err => trivial
    | ok _ => trivial
  · trivial

theorem uses_setState (up : Bool) : (setState i.identifier up).Uses (Allowed i) := by
  unfold setState
  split
  · refine ⟨.linkSetUp, fun answer => ?_⟩
    cases answer with
    | error err => trivial
    | ok _ => trivial
  · refine ⟨.linkSetDown, fun answer => ?_⟩
    cases answer with
    | error err => trivial
    | ok _ => trivial

theorem uses_updateLowLevelInterface (pi : PhysicalInterface) :
    (updateLowLevelInterface (mergeToPhysicalInterface pi i)).Uses (Allowed i) := by
  refine ⟨.linkByName, fun answer => ?_⟩
  cases answer with
  | error err => trivial
  | ok _ =>
    refine uses_setMtu.bind fun r => ?_
    cases r with
    | error err => trivial
    | ok _ =>
      refine (uses_replaceAddresses fun _ mem => mem).bind fun r => ?_
      cases r with
      | error err => trivial
      | ok _ =>
        refine ⟨.addrList, fun answer => ?_⟩
        cases answer with
        | error err => trivial
        | ok rawAddresses =>
          refine (uses_removeAddresses rawAddresses).bind fun r => ?_
          cases r with
          | error err => trivial
          | ok _ => exact uses_setState _

theorem uses_updateWireGuardInterface (pi : PhysicalInterface) :
    (updateWireGuardInterface (mergeToPhysicalInterface pi i)).Uses (Allowed i) := by
  unfold updateWireGuardInterface
  split
  · trivial
  · refine ⟨.configureDevice _ fun zero => ?_, fun _ => trivial⟩
    exact if_neg (not_not.mpr zero)

/-- The function that the manager saves an interface with -/
def merging (i : Interface) (pi : PhysicalInterface) : Except Error PhysicalInterface :=
  .ok (mergeToPhysicalInterface pi i)

theorem uses_saveInterface : (saveInterface i.identifier (merging i)).Uses (Allowed i) := by
  refine uses_getOrCreateInterface.bind fun r => ?_
  cases r with
  | error err => trivial
  | ok pi =>
    refine (uses_updateLowLevelInterface pi).bind fun r => ?_
    cases r with
    | error err => trivial
    | ok _ => exact uses_updateWireGuardInterface pi

end Uses

section Success

/-- The host with this link -/
def put (host : Host w) (id : InterfaceIdentifier) (link : Link w) : Host w :=
  Function.update host id (some link)

variable {link : Link w} {id : InterfaceIdentifier}

theorem yields_issue (op : LocalOp) {v : op.Val} (named : op.name = id)
    (result : op.onLink kernel link = .ok (v, some new)) :
    Yields (Step kernel) (issue op) (put host id link) fun v' t =>
      v' = v ∧ t = put host id new := by
  intro answer t step
  rcases step.cases with ⟨err, rfl, -⟩ | ⟨v', link', rfl, outcome, rfl⟩
  · exact fun _ ok => by cases ok
  · intro v'' ok
    obtain rfl := Except.ok.inj ok
    have there : put host id link op.name = some link := by
      rw [named]
      exact Function.update_self ..
    rw [there] at outcome
    have same := Prod.mk.inj (Except.ok.inj (outcome.symm.trans result))
    refine ⟨same.1, ?_⟩
    rw [same.2, named, put, put, Function.update_idem]

theorem yields_setMtu (mtu : Int) :
    Yields (Step kernel) (setMtu id mtu) (put host id link) fun _ t =>
      t = put host id { link with mtu := if mtu = 0 then link.mtu else mtu } := by
  by_cases zero : mtu = 0
  · rw [setMtu, if_neg (not_not.mpr zero), if_pos zero]
    exact yields_ok rfl
  · rw [setMtu, if_pos zero, if_neg zero]
    refine (yields_issue _ rfl rfl).bind (fun err t => yields_error _ t _) fun v t ended => ?_
    exact yields_ok ended.2

theorem yields_setState (up : Bool) :
    Yields (Step kernel) (setState id up) (put host id link) fun _ t =>
      t = put host id { link with up := up } := by
  cases up with
  | true =>
    refine (yields_issue (.linkSetUp id) rfl rfl).bind (fun err t => yields_error _ t _)
      fun v t ended => ?_
    exact yields_ok ended.2
  | false =>
    refine (yields_issue (.linkSetDown id) rfl rfl).bind (fun err t => yields_error _ t _)
      fun v t ended => ?_
    exact yields_ok ended.2

theorem yields_replaceAddresses (addresses : List Cidr) :
    Yields (Step kernel) (replaceAddresses id addresses) (put host id link) fun _ t =>
      t = put host id { link with addresses := addresses.foldl kernel.replace link.addresses } := by
  induction addresses generalizing link with
  | nil => exact yields_ok rfl
  | cons c addresses ih =>
    have asked : LocalOp.onLink kernel link (.addrReplace id (Cidr.ipNet c)) =
        .ok ((), some { link with addresses := kernel.replace link.addresses c }) := by
      have read : prefixOf (Cidr.ipNet c) = some c := prefixOf_ofPrefix c
      rw [LocalOp.onLink, read]
    refine (yields_issue _ (by rfl) asked).bind (fun err t => yields_error _ t _)
      fun v t ended => ?_
    rw [ended.2]
    exact ih

/-- An address that is there and was not asked for -/
def Unwanted (wanted : List Cidr) (b : Cidr) : Prop := unmapped b ∉ wanted

instance (wanted : List Cidr) (b : Cidr) : Decidable (Unwanted wanted b) :=
  inferInstanceAs (Decidable (unmapped b ∉ wanted))

/-- The addresses of the link after those that were not asked for have been removed -/
def cleaned (kernel : Kernel) (wanted listed addresses : List Cidr) : List Cidr :=
  (listed.filter fun b => Unwanted wanted b).foldl kernel.delete addresses

theorem yields_addrDel {b : Cidr} :
    Yields (Step kernel) (issue (.addrDel id (shortNet b))) (put host id link) fun _ t =>
      t = put host id { link with addresses := kernel.delete link.addresses b } := by
  have read : prefixOf (shortNet b) = some b := prefixOf_shortNet b
  by_cases there : b ∈ link.addresses
  · have asked : LocalOp.onLink kernel link (.addrDel id (shortNet b)) =
        .ok ((), some { link with addresses := kernel.delete link.addresses b }) := by
      simp only [LocalOp.onLink, read, if_pos there]
    exact (yields_issue _ (by rfl) asked).mono fun _ t ended => ended.2
  · intro answer t step
    rcases step.cases with ⟨err, rfl, -⟩ | ⟨v, new, -, outcome, -⟩
    · exact fun _ ok => by cases ok
    · have found : put host id link id = some link := Function.update_self ..
      simp only [LocalOp.name, found, LocalOp.outcome, LocalOp.onLink, read,
        if_neg there] at outcome
      cases outcome

theorem yields_removeAddresses (wanted listed : List Cidr) :
    Yields (Step kernel) (removeAddresses id wanted (listed.map shortNet)) (put host id link)
      fun _ t => t = put host id
        { link with addresses := cleaned kernel wanted listed link.addresses } := by
  induction listed generalizing link with
  | nil => exact yields_ok rfl
  | cons b listed ih =>
    have asked : (wanted.any fun addr => some addr = Cidr.fromIpNet (shortNet b)) = true ↔
        ¬ Unwanted wanted b := by
      rw [Cidr.fromIpNet_shortNet, Unwanted, not_not, List.any_eq_true]
      constructor
      · rintro ⟨c, mem, same⟩
        exact Option.some.inj (of_decide_eq_true same) ▸ mem
      · exact fun mem => ⟨_, mem, decide_eq_true rfl⟩
    rw [List.map_cons, removeAddresses]
    by_cases unwanted : Unwanted wanted b
    · rw [if_neg fun there => asked.mp there unwanted]
      refine yields_addrDel.bind (fun err t => yields_error _ t _) fun v t ended => ?_
      have first : cleaned kernel wanted (b :: listed) link.addresses =
          cleaned kernel wanted listed (kernel.delete link.addresses b) := by
        simp only [cleaned, List.filter_cons, decide_eq_true unwanted, if_true, List.foldl_cons]
      rw [ended, first]
      exact ih
    · rw [if_pos (asked.mpr unwanted)]
      have first : cleaned kernel wanted (b :: listed) link.addresses =
          cleaned kernel wanted listed link.addresses := by
        simp only [cleaned, List.filter_cons, decide_eq_false unwanted, Bool.false_eq_true,
          if_false]
      rw [first]
      exact ih

/-- Operations that only read -/
inductive Reads : LocalOp → Prop
  | device (name : InterfaceIdentifier) : Reads (.device name)
  | linkByName (name : InterfaceIdentifier) : Reads (.linkByName name)
  | addrList (name : InterfaceIdentifier) : Reads (.addrList name)

theorem Step.read {op : LocalOp} {answer : op.Res} (step : Step kernel op host answer after)
    (reads : Reads op) :
    after = host ∧ ∀ v, answer = .ok v → ∃ link, host op.name = some link := by
  rcases step.cases with ⟨err, rfl, rfl⟩ | ⟨v, new, -, outcome, rfl⟩
  · exact ⟨rfl, fun v ok => by cases ok⟩
  · cases found : host op.name with
    | none =>
      rw [found] at outcome
      cases reads <;> cases outcome
    | some link =>
      rw [found] at outcome
      have kept : new = some link := by
        cases reads <;> (cases outcome; rfl)
      refine ⟨?_, fun _ _ => ⟨link, rfl⟩⟩
      rw [kept, ← found]
      exact Function.update_eq_self _ _

theorem always_getInterface (id : InterfaceIdentifier) (host : Host w) :
    (getInterface id).Always (Step kernel) host fun r t =>
      t = host ∧ ∀ pi, r = .ok pi → ∃ link, host id = some link := by
  intro answer t step
  obtain ⟨rfl, there⟩ := step.read (.device id)
  cases answer with
  | error err => exact ⟨rfl, fun pi ok => by cases ok⟩
  | ok device =>
    obtain ⟨link, found⟩ := there device rfl
    intro answer t' step
    obtain ⟨rfl, -⟩ := step.read (.linkByName id)
    cases answer with
    | error err => exact ⟨rfl, fun pi ok => by cases ok⟩
    | ok attrs =>
      intro answer t'' step
      obtain ⟨rfl, -⟩ := step.read (.addrList id)
      cases answer with
      | error err => exact ⟨rfl, fun pi ok => by cases ok⟩
      | ok addresses => exact ⟨rfl, fun _ _ => ⟨link, found⟩⟩

theorem put_of_find (found : host id = some link) : put host id link = host := by
  rw [put, ← found]
  exact Function.update_eq_self _ _

theorem yields_getOrCreateInterface (id : InterfaceIdentifier) (host : Host w) :
    Yields (Step kernel) (getOrCreateInterface id) host fun _ t =>
      t = put host id ((host id).getD kernel.fresh) := by
  refine (always_getInterface id host).bind fun r t read => ?_
  obtain ⟨rfl, there⟩ := read
  cases r with
  | ok pi =>
    obtain ⟨link, found⟩ := there pi rfl
    refine yields_ok ?_
    rw [found]
    exact (put_of_find found).symm
  | error err =>
    dsimp only
    split
    · exact yields_error _ _ _
    · intro answer t' step
      rcases step.cases with ⟨err, rfl, -⟩ | ⟨v, new, rfl, outcome, rfl⟩
      · exact yields_error _ _ _
      · cases found : t id with
        | some link =>
          simp only [LocalOp.name, found] at outcome
          cases outcome
        | none =>
          simp only [LocalOp.name, found] at outcome
          cases outcome
          exact (always_getInterface id _).mono fun r t' read pi ok => read.1

/-- The link after it has been saved -/
def applied (kernel : Kernel) (i : Interface) (key : Key) (link : Link w) : Link w :=
  let added := i.addresses.foldl kernel.replace link.addresses
  { link with
    privateKey := key
    listenPort := i.listenPort
    firewallMark := if i.firewallMark = 0 then link.firewallMark else i.firewallMark
    mtu := if i.mtu = 0 then link.mtu else i.mtu
    addresses := cleaned kernel i.addresses added added
    up := !i.isDisabled }

theorem yields_updateLowLevelInterface (pi : PhysicalInterface) :
    Yields (Step kernel) (updateLowLevelInterface (mergeToPhysicalInterface pi i))
      (put host i.identifier link) fun _ t =>
        t = put host i.identifier { link with
          mtu := if i.mtu = 0 then link.mtu else i.mtu
          addresses := cleaned kernel i.addresses (i.addresses.foldl kernel.replace link.addresses)
            (i.addresses.foldl kernel.replace link.addresses)
          up := !i.isDisabled } := by
  refine (yields_issue (.linkByName i.identifier) rfl rfl).bind
    (fun err t => yields_error _ t _) fun v t ended => ?_
  rw [ended.2]
  refine (yields_setMtu i.mtu).bind (fun err t => yields_error _ t _) fun v t ended => ?_
  rw [ended]
  refine (yields_replaceAddresses i.addresses).bind (fun err t => yields_error _ t _)
    fun v t ended => ?_
  rw [ended]
  refine (yields_issue (.addrList i.identifier) rfl rfl).bind
    (fun err t => yields_error _ t _) fun rawAddresses t ended => ?_
  rw [ended.1, ended.2]
  refine (yields_removeAddresses i.addresses _).bind (fun err t => yields_error _ t _)
    fun v t ended => ?_
  rw [ended]
  exact yields_setState (!i.isDisabled)

theorem yields_updateWireGuardInterface (pi : PhysicalInterface) :
    Yields (Step kernel) (updateWireGuardInterface (mergeToPhysicalInterface pi i))
      (put host i.identifier link) fun _ t => ∃ key,
        newKey (getPrivateKeyBytes i.keyPair) = .ok key ∧ t = put host i.identifier { link with
          privateKey := key
          listenPort := i.listenPort
          firewallMark := if i.firewallMark = 0 then link.firewallMark else i.firewallMark } := by
  unfold updateWireGuardInterface
  have same : (mergeToPhysicalInterface pi i).keyPair = i.keyPair := rfl
  rw [same]
  cases valid : newKey (getPrivateKeyBytes i.keyPair) with
  | error err => exact yields_error _ _ _
  | ok key =>
    have mark : (if i.firewallMark ≠ 0 then some i.firewallMark else none).getD link.firewallMark =
        if i.firewallMark = 0 then link.firewallMark else i.firewallMark := by
      by_cases zero : i.firewallMark = 0
      · rw [if_neg (not_not.mpr zero), if_pos zero]
        rfl
      · rw [if_pos zero, if_neg zero]
        rfl
    rw [← mark]
    refine (yields_issue (.configureDevice i.identifier ⟨key, i.listenPort,
      if i.firewallMark ≠ 0 then some i.firewallMark else none⟩) rfl rfl).mono fun v t ended => ?_
    exact ⟨key, rfl, ended.2⟩

/-- A successful save has one effect only. -/
theorem yields_saveInterface (i : Interface) (host : Host w) :
    Yields (Step kernel) (saveInterface i.identifier (merging i)) host fun _ t => ∃ key,
      newKey (getPrivateKeyBytes i.keyPair) = .ok key ∧
      t = put host i.identifier
        (applied kernel i key ((host i.identifier).getD kernel.fresh)) := by
  refine (yields_getOrCreateInterface i.identifier host).bind (fun err t => yields_error _ t _)
    fun pi t ended => ?_
  rw [ended]
  refine (yields_updateLowLevelInterface pi).bind (fun err t => yields_error _ t _)
    fun v t ended => ?_
  rw [ended]
  exact yields_updateWireGuardInterface pi

end Success

section Addresses

variable {wanted addresses : List Cidr} {b c : Cidr}

/-- No address is wanted with two lengths. -/
def Consistent (wanted : List Cidr) : Prop := ∀ b ∈ wanted, ∀ c ∈ wanted, b.addr = c.addr → b = c

theorem mem_of_replaced (mem : b ∈ wanted.foldl kernel.replace addresses) :
    b ∈ addresses ∨ b ∈ wanted := by
  induction wanted generalizing addresses with
  | nil => exact .inl mem
  | cons c wanted ih =>
    rcases ih mem with there | new
    · rcases kernel.mem_of_replace there with old | rfl
      · exact .inl old
      · exact .inr List.mem_cons_self
    · exact .inr (List.mem_cons_of_mem c new)

/-- An address is added unless another length of it stands in the way. -/
theorem mem_replaced (clear : ∀ b ∈ addresses, b.addr = c.addr → b = c)
    (consistent : ∀ b ∈ wanted, b.addr = c.addr → b = c) (mem : c ∈ addresses ∨ c ∈ wanted) :
    c ∈ wanted.foldl kernel.replace addresses := by
  induction wanted generalizing addresses with
  | nil => exact mem.resolve_right List.not_mem_nil
  | cons a wanted ih =>
    have later : ∀ b ∈ wanted, b.addr = c.addr → b = c :=
      fun b inside => consistent b (List.mem_cons_of_mem a inside)
    refine ih (fun b there same => ?_) later ?_
    · rcases kernel.mem_of_replace there with old | rfl
      · exact clear b old same
      · exact consistent b List.mem_cons_self same
    · by_cases here : a.addr = c.addr
      · obtain rfl := consistent a List.mem_cons_self here
        exact .inl (kernel.mem_replace_self clear)
      · rcases mem with old | new
        · exact .inl (kernel.mem_replace old (Ne.symm here))
        · rcases List.mem_cons.mp new with rfl | new
          · exact absurd rfl here
          · exact .inr new

theorem mem_of_deleted {gone : List Cidr} (mem : b ∈ gone.foldl kernel.delete addresses) :
    b ∈ addresses ∧ b ∉ gone := by
  induction gone generalizing addresses with
  | nil => exact ⟨mem, List.not_mem_nil⟩
  | cons c gone ih =>
    obtain ⟨there, other⟩ := ih mem
    obtain ⟨old, ne⟩ := kernel.mem_of_delete there
    exact ⟨old, fun inside => (List.mem_cons.mp inside).elim ne other⟩

theorem mem_deleted {gone : List Cidr} (there : c ∈ addresses)
    (apart : ∀ b ∈ gone, c ≠ b ∧ ¬ (c.addr.family = .v4 ∧ c.masked = b.masked)) :
    c ∈ gone.foldl kernel.delete addresses := by
  induction gone generalizing addresses with
  | nil => exact there
  | cons b gone ih =>
    have first := apart b List.mem_cons_self
    exact ih (kernel.mem_delete there first.1 first.2)
      fun b' inside => apart b' (List.mem_cons_of_mem b inside)

theorem not_mapped_unmapped (b : Cidr) : ¬ Mapped (unmapped b).addr := by
  unfold unmapped
  split
  · exact fun mapped => by cases mapped.1
  · assumption

theorem unmapped_of_not_mapped (other : ¬ Mapped b.addr) : unmapped b = b := if_neg other

/-- What was there is wanted, or does not read as it was written. -/
def Tidy (wanted addresses : List Cidr) : Prop := ∀ b ∈ addresses, b ∈ wanted ∨ Mapped b.addr

theorem wanted_of_cleaned (mem : b ∈ cleaned kernel wanted addresses addresses) :
    unmapped b ∈ wanted := by
  obtain ⟨there, kept⟩ := mem_of_deleted mem
  by_contra unwanted
  exact kept (List.mem_filter.mpr ⟨there, decide_eq_true unwanted⟩)

/-- Of a tidy link, only addresses are removed that read as others. -/
theorem mapped_of_unwanted (tidy : Tidy wanted addresses)
    (there : b ∈ wanted.foldl kernel.replace addresses) (unwanted : Unwanted wanted b) :
    Mapped b.addr := by
  by_contra other
  have missing : b ∉ wanted := by
    intro mem
    rw [Unwanted, unmapped_of_not_mapped other] at unwanted
    exact unwanted mem
  rcases mem_of_replaced there with old | new
  · exact other ((tidy b old).resolve_left missing)
  · exact missing new

theorem mem_saved_iff (consistent : Consistent wanted) (tidy : Tidy wanted addresses) (c : Cidr) :
    c ∈ (cleaned kernel wanted (wanted.foldl kernel.replace addresses)
      (wanted.foldl kernel.replace addresses)).map unmapped ↔ c ∈ wanted ∧ ¬ Mapped c.addr := by
  constructor
  · intro mem
    obtain ⟨b, inside, rfl⟩ := List.mem_map.mp mem
    exact ⟨wanted_of_cleaned inside, not_mapped_unmapped b⟩
  · rintro ⟨mem, other⟩
    have clear : ∀ b ∈ addresses, b.addr = c.addr → b = c := by
      intro b old same
      have wanted' := (tidy b old).resolve_right (same ▸ other)
      exact consistent b wanted' c mem same
    have there : c ∈ wanted.foldl kernel.replace addresses :=
      mem_replaced clear (fun b inside => consistent b inside c mem) (.inr mem)
    refine List.mem_map.mpr ⟨c, mem_deleted there fun b gone => ?_, unmapped_of_not_mapped other⟩
    obtain ⟨listed, unwanted⟩ := List.mem_filter.mp gone
    have mapped := mapped_of_unwanted tidy listed (of_decide_eq_true unwanted)
    refine ⟨fun same => other (same ▸ mapped), fun shared => ?_⟩
    have family : c.addr.family = b.addr.family := congrArg (·.addr.family) shared.2
    rw [shared.1, mapped.1] at family
    cases family

end Addresses

section Runs

variable (kernel : Kernel) (i : Interface)

/-- One call of `SaveInterface` by the manager -/
def attempt (faults : ℕ → Option String) (host : Host w) : Except Error Unit × Host w :=
  let run := (saveInterface i.identifier (merging i)).eval (LocalOp.inTurn kernel faults) (0, host)
  (run.1, run.2.2)

def attempts (host : Host w) (runs : List (ℕ → Option String)) : Host w :=
  runs.foldl (fun host faults => (attempt kernel i faults host).2) host

variable {kernel i} {faults : ℕ → Option String}

theorem inTurn_steps (faults : ℕ → Option String) (op : LocalOp) (s : ℕ × Host w) :
    Step kernel op s.2 (op.inTurn kernel faults s).1 (op.inTurn kernel faults s).2.2 :=
  ⟨faults s.1, rfl⟩

theorem attempt_frame (faults : ℕ → Option String) (host : Host w) :
    Frame kernel i host (attempt kernel i faults host).2 :=
  Always.eval (t := (0, host)) (inTurn_steps faults) (always_frame uses_saveInterface host)

theorem attempt_saved (saved : (attempt kernel i faults host).1 = .ok ()) : ∃ key,
    newKey (getPrivateKeyBytes i.keyPair) = .ok key ∧ (attempt kernel i faults host).2 =
      put host i.identifier (applied kernel i key ((host i.identifier).getD kernel.fresh)) :=
  Always.eval (t := (0, host)) (inTurn_steps faults) (yields_saveInterface i host) () saved

theorem attempts_frame (host : Host w) (runs : List (ℕ → Option String)) :
    Frame kernel i host (attempts kernel i host runs) := by
  induction runs generalizing host with
  | nil => exact .refl kernel i host
  | cons faults runs ih => exact (attempt_frame faults host).trans (ih _)

theorem attempts_append (host : Host w) (first second : List (ℕ → Option String)) :
    attempts kernel i host (first ++ second) =
      attempts kernel i (attempts kernel i host first) second :=
  List.foldl_append

variable (kernel i)

/-- The link has the settings of the interface, and no other addresses than its own. Marks and
MTUs of zero stand for what was there. -/
structure Configured (link : Link w) : Prop where
  key : newKey (getPrivateKeyBytes i.keyPair) = .ok link.privateKey
  listenPort : link.listenPort = i.listenPort
  mark : i.firewallMark ≠ 0 → link.firewallMark = i.firewallMark
  mtu : i.mtu ≠ 0 → link.mtu = i.mtu
  up : link.up = !i.isDisabled
  addresses : ∀ b ∈ link.addresses, unmapped b ∈ i.addresses

/-- The addresses of the link, as they are read, are those of the interface that are not written
as addresses of IPv6 for ones of IPv4. -/
def Addressed (link : Link w) : Prop :=
  ∀ c, c ∈ link.addresses.map unmapped ↔ c ∈ i.addresses ∧ ¬ Mapped c.addr

variable {kernel i}

theorem configured_applied {key : Key} (valid : newKey (getPrivateKeyBytes i.keyPair) = .ok key)
    (link : Link w) : Configured i (applied kernel i key link) where
  key := valid
  listenPort := rfl
  mark some := if_neg some
  mtu some := if_neg some
  up := rfl
  addresses _ mem := wanted_of_cleaned mem

theorem tidy_of_configured {link : Link w} (configured : Configured i link) :
    Tidy i.addresses link.addresses := by
  intro b mem
  by_cases mapped : Mapped b.addr
  · exact .inr mapped
  · exact .inl (unmapped_of_not_mapped mapped ▸ configured.addresses b mem)

/-- A tidy link stays tidy, also when attempts fail. -/
theorem Frame.tidy (frame : Frame kernel i host after)
    (tidy : Tidy i.addresses ((host i.identifier).getD kernel.fresh).addresses) :
    Tidy i.addresses ((after i.identifier).getD kernel.fresh).addresses :=
  fun b mem => (frame.kept.addresses b mem).elim (tidy b) .inl

theorem attempt_configured (consistent : Consistent i.addresses)
    (saved : (attempt kernel i faults host).1 = .ok ()) :
    ∃ link, (attempt kernel i faults host).2 i.identifier = some link ∧ Configured i link ∧
      (Tidy i.addresses ((host i.identifier).getD kernel.fresh).addresses → Addressed i link) := by
  obtain ⟨key, valid, ended⟩ := attempt_saved saved
  refine ⟨applied kernel i key ((host i.identifier).getD kernel.fresh), ?_,
    configured_applied valid _, mem_saved_iff consistent⟩
  rw [ended]
  exact Function.update_self ..

theorem attempts_concat (host : Host w) (runs : List (ℕ → Option String))
    (last : ℕ → Option String) : attempts kernel i host (runs ++ [last]) =
      (attempt kernel i last (attempts kernel i host runs)).2 := attempts_append host runs [last]

/-- Adds and removes addresses one by one. -/
def plainKernel : Kernel where
  publicKey := id
  initialKey := ⟨List.replicate 32 0, by decide⟩
  initialMtu := 1420
  replace addresses c := if c ∈ addresses then addresses else addresses ++ [c]
  mem_of_replace := by
    intro addresses c b mem
    split at mem
    · exact .inl mem
    · exact (List.mem_append.mp mem).imp_right List.mem_singleton.mp
  mem_replace := by
    intro addresses c b mem _
    split
    · exact mem
    · exact List.mem_append_left _ mem
  mem_replace_self := by
    intro addresses c _
    split
    · assumption
    · exact List.mem_append_right _ (List.mem_singleton.mpr rfl)
  delete addresses c := addresses.filter (· ≠ c)
  mem_of_delete := by
    intro addresses c b mem
    obtain ⟨there, ne⟩ := List.mem_filter.mp mem
    exact ⟨there, of_decide_eq_true ne⟩
  mem_delete := fun mem ne _ => List.mem_filter.mpr ⟨mem, decide_eq_true ne⟩

def movedInterface : Interface :=
  { Interface.zero with
    identifier := "wg0"
    keyPair := ⟨"AAAAAAAAAAAAAAAAAAAAAAAAAAAAAAAAAAAAAAAAAAA=", ""⟩
    listenPort := 51820
    mtu := 1380
    addresses := cidrsOrNil "10.0.0.2/24" }

/-- The interface with its old address -/
def oldHost : Host plainTypes :=
  put (fun _ => none) "wg0" { plainKernel.fresh with addresses := cidrsOrNil "10.0.0.1/24" }

def calm : ℕ → Option String := fun _ => none

/-- The eighth operation fails: the old address is to be removed, or the link is to be set up. -/
def failing : ℕ → Option String := fun n => if n = 7 then some "device busy" else none

end Runs

section Deletion

variable {id : InterfaceIdentifier}

/-- Without an error, the interface is gone, if not being found is reported for missing links
only; with an error, nothing has changed. -/
theorem deleteInterface_removes (kernel : Kernel) (id : InterfaceIdentifier) (host : Host w)
    (faults : ℕ → Option String) (named : ∀ n, faults n ≠ some "Link not found") :
    (((deleteInterface id).eval (LocalOp.inTurn kernel faults) (0, host)).1 = .ok () ∧
      ((deleteInterface id).eval (LocalOp.inTurn kernel faults) (0, host)).2.2 =
        Function.update host id none) ∨
    ∃ err, ((deleteInterface id).eval (LocalOp.inTurn kernel faults) (0, host)).1 = .error err ∧
      ((deleteInterface id).eval (LocalOp.inTurn kernel faults) (0, host)).2.2 = host := by
  simp only [deleteInterface, issue, perform_bind, eval_call, LocalOp.inTurn]
  cases first : faults 0 with
  | some text =>
    have other : (Error.other text).is errLinkNotFound = false := by
      have ne : text ≠ "Link not found" := fun same => named 0 (same ▸ first)
      simp [Error.is, errLinkNotFound, ne]
    simp only [LocalOp.exec, other]
    exact .inr ⟨_, rfl, rfl⟩
  | none =>
    cases found : host id with
    | none =>
      have kept : Function.update host id none = host := by
        rw [← found]
        exact Function.update_eq_self _ _
      simp only [LocalOp.exec, LocalOp.name, found, LocalOp.outcome, LocalOp.withoutLink]
      exact .inl ⟨rfl, kept.symm⟩
    | some link =>
      have kept : Function.update host id (some link) = host := by
        rw [← found]
        exact Function.update_eq_self _ _
      cases second : faults 1 with
      | some text =>
        simp only [LocalOp.exec, LocalOp.name, found, LocalOp.outcome, LocalOp.onLink, eval_call,
          LocalOp.inTurn, Nat.zero_add, second]
        exact .inr ⟨_, rfl, kept⟩
      | none =>
        have still : Function.update host id (some link) id = some link :=
          Function.update_self ..
        simp only [LocalOp.exec, LocalOp.name, found, LocalOp.outcome, LocalOp.onLink, eval_call,
          LocalOp.inTurn, Nat.zero_add, second, still]
        exact .inl ⟨rfl, Function.update_idem ..⟩

end Deletion

end WgPortal.WgController.LocalInterfaces
