import WgPortal.WireGuard.Manager

/-! The two ways in which the allowed IPs of a stored peer reach a backend. -/

namespace WgPortal.WireGuard.ControllerManager

open Domain App WgController
open ManagerProgram (issue)

section Lists

variable {α β : Type} {f : α → Option β} {l : List α}

theorem mapM_eq_filterMap (all : ∀ a ∈ l, (f a).isSome) : l.mapM f = some (l.filterMap f) := by
  induction l with
  | nil => rfl
  | cons a l ih =>
    obtain ⟨b, parsed⟩ := Option.isSome_iff_exists.mp (all a List.mem_cons_self)
    rw [List.mapM_cons, List.filterMap_cons_some parsed, parsed,
      ih fun a mem => all a (List.mem_cons_of_mem _ mem)]
    rfl

theorem mapM_eq_none {a : α} (mem : a ∈ l) (fails : f a = none) : l.mapM f = none := by
  induction l with
  | nil => cases mem
  | cons b l ih =>
    rw [List.mapM_cons]
    rcases List.mem_cons.mp mem with rfl | mem
    · rw [fails]
      rfl
    · rw [ih mem]
      cases f b <;> rfl

/-- All or nothing is the same as what there is if there is all or nothing. -/
theorem getD_mapM_eq_filterMap_iff :
    (l.mapM f).getD [] = l.filterMap f ↔ (∀ a ∈ l, (f a).isSome) ∨ ∀ a ∈ l, f a = none := by
  by_cases all : ∀ a ∈ l, (f a).isSome
  · rw [mapM_eq_filterMap all]
    exact iff_of_true rfl (.inl all)
  · obtain ⟨a, mem, fails⟩ : ∃ a ∈ l, f a = none := by simpa using all
    rw [mapM_eq_none mem fails, Option.getD_none, eq_comm, List.filterMap_eq_nil_iff]
    exact ⟨.inr, fun either => either.resolve_left all⟩

end Lists

/-- The entries that are no prefixes are left out. -/
def parseAllowedIPs (allowedIPsStr : String) : List Cidr :=
  (allowedIPsStr.toList.splitOn ',').filterMap fun ip => cidrFromString (String.ofList ip)

/-- The update function of `SavePeer` -/
def updateFunc (peer : Peer) (pp : PhysicalPeer) : PhysicalPeer :=
  { pp with
    identifier := peer.identifier
    endpoint := peer.endpoint.value
    allowedIPs := parseAllowedIPs peer.allowedIPsStr.value
    presharedKey := peer.presharedKey
    persistentKeepalive := peer.persistentKeepalive.value }

def savePeer (iface : InterfaceIdentifier) (peer : Peer) : ManagerProgram (Except Error Unit) := do
  match ← issue (.savePeer localBackendName iface peer.identifier fun pp =>
      .ok (updateFunc peer pp)) with
  | .error err =>
    return .error (.wrap ("failed to save peer " ++ peer.identifier ++ " on iface " ++ iface) err)
  | .ok _ => return .ok ()

/-- What stands between the commas of a list -/
def entries (list : String) : List String := (list.toList.splitOn ',').map String.ofList

/-- One of the entries is the prefix. -/
def Lists (list : String) (c : Cidr) : Prop :=
  ∃ entry ∈ entries list, cidrFromString entry = some c

/-- The prefixes in both lists are allowed, and the two ways agree on the first list. -/
structure EntriesKept (pp : PhysicalPeer) (p : Peer) (force : Bool) : Prop where
  allowed : ∀ c, Lists p.allowedIPsStr.value c → c ∈ (mergeToPhysicalPeer pp p force).allowedIPs
  extra : ∀ c, Lists p.extraAllowedIPsStr c → c ∈ (mergeToPhysicalPeer pp p force).allowedIPs
  agree : (mergeToPhysicalPeer pp { p with extraAllowedIPsStr := "" } force).allowedIPs =
    (updateFunc p pp).allowedIPs

/-- Every entry is a prefix. -/
def AllValid (list : String) : Prop := ∀ entry ∈ entries list, (cidrFromString entry).isSome

/-- No entry is one. -/
def NoneValid (list : String) : Prop := ∀ entry ∈ entries list, cidrFromString entry = none

instance (list : String) : Decidable (AllValid list) :=
  inferInstanceAs (Decidable (∀ entry ∈ entries list, _))

theorem cidrsFromString_eq (list : String) :
    cidrsFromString list = (entries list).mapM cidrFromString := by
  rw [cidrsFromString, entries, List.mapM_map]
  rfl

theorem parseAllowedIPs_eq (list : String) :
    parseAllowedIPs list = (entries list).filterMap cidrFromString := by
  rw [parseAllowedIPs, entries, List.filterMap_map]
  rfl

theorem mem_parseAllowedIPs {list : String} {c : Cidr} :
    c ∈ parseAllowedIPs list ↔ Lists list c := by
  rw [parseAllowedIPs_eq, List.mem_filterMap]
  rfl

/-- The lists that are parsed in the same way -/
theorem cidrsOrNil_eq_iff {list : String} :
    cidrsOrNil list = parseAllowedIPs list ↔ AllValid list ∨ NoneValid list := by
  rw [cidrsOrNil, cidrsFromString_eq, parseAllowedIPs_eq]
  exact getD_mapM_eq_filterMap_iff

theorem cidrsOrNil_of_not_allValid {list : String} (invalid : ¬ AllValid list) :
    cidrsOrNil list = [] := by
  obtain ⟨entry, mem, fails⟩ : ∃ entry ∈ entries list, cidrFromString entry = none := by
    simpa [AllValid] using invalid
  rw [cidrsOrNil, cidrsFromString_eq, mapM_eq_none mem fails, Option.getD_none]

theorem merged_server {pp : PhysicalPeer} {p : Peer} {force : Bool}
    (server : p.interface.type = .server) :
    (mergeToPhysicalPeer pp p force).allowedIPs =
      cidrsOrNil p.allowedIPsStr.value ++ cidrsOrNil p.extraAllowedIPsStr := by
  rw [mergeToPhysicalPeer, mergedAllowedIPs, if_pos server]

/-- The entries are kept exactly if the first list has prefixes only or none, and
the second one prefixes only or none that the first does not have. -/
theorem entriesKept_iff {pp : PhysicalPeer} {p : Peer} {force : Bool}
    (server : p.interface.type = .server) :
    EntriesKept pp p force ↔
      (AllValid p.allowedIPsStr.value ∨ NoneValid p.allowedIPsStr.value) ∧
        (AllValid p.extraAllowedIPsStr ∨
          ∀ c, Lists p.extraAllowedIPsStr c → Lists p.allowedIPsStr.value c) := by
  have first : (mergeToPhysicalPeer pp { p with extraAllowedIPsStr := "" } force).allowedIPs =
      cidrsOrNil p.allowedIPsStr.value := by
    have empty : cidrsOrNil "" = [] := by decide
    refine (merged_server (p := { p with extraAllowedIPsStr := "" }) server).trans ?_
    rw [empty, List.append_nil]
  have same : (mergeToPhysicalPeer pp { p with extraAllowedIPsStr := "" } force).allowedIPs =
      (updateFunc p pp).allowedIPs ↔
        AllValid p.allowedIPsStr.value ∨ NoneValid p.allowedIPsStr.value := by
    rw [first]
    exact cidrsOrNil_eq_iff
  constructor
  · intro kept
    refine ⟨same.mp kept.agree, ?_⟩
    by_cases all : AllValid p.extraAllowedIPsStr
    · exact .inl all
    · refine .inr fun c listed => ?_
      have mem := kept.extra c listed
      rw [merged_server server, cidrsOrNil_of_not_allValid all, List.append_nil,
        cidrsOrNil_eq_iff.mpr (same.mp kept.agree)] at mem
      exact mem_parseAllowedIPs.mp mem
  · rintro ⟨uniform, extra⟩
    have parsed := cidrsOrNil_eq_iff.mpr uniform
    have allowed : ∀ c, Lists p.allowedIPsStr.value c →
        c ∈ (mergeToPhysicalPeer pp p force).allowedIPs := by
      intro c listed
      rw [merged_server server, parsed]
      exact List.mem_append_left _ (mem_parseAllowedIPs.mpr listed)
    refine ⟨allowed, fun c listed => ?_, same.mpr uniform⟩
    rcases extra with all | also
    · rw [merged_server server, cidrsOrNil_eq_iff.mpr (.inl all)]
      exact List.mem_append_right _ (mem_parseAllowedIPs.mpr listed)
    · exact allowed c (also c listed)

/-- A server-type peer whose list has blanks -/
def sampleServer (allowedIPsStr : String) : Peer :=
  { Peer.zero with
    allowedIPsStr := newConfigOption allowedIPsStr true
    extraAllowedIPsStr := "10.2.0.0/16"
    interface := { Peer.zero.interface with type := .server } }

theorem blanks_entriesKept :
    EntriesKept PhysicalPeer.zero (sampleServer "10.0.0.0/8, 192.168.0.0/16") false := by
  have all : AllValid "10.0.0.0/8, 192.168.0.0/16" ∧ AllValid "10.2.0.0/16" := by decide
  exact (entriesKept_iff rfl).mpr ⟨.inl all.1, .inl all.2⟩

/-- A comma at the end of the list drops its only prefix. -/
theorem trailingComma_notKept :
    (mergeToPhysicalPeer PhysicalPeer.zero (sampleServer "10.0.0.0/8,") false).allowedIPs =
        cidrsOrNil "10.2.0.0/16" ∧
      parseAllowedIPs "10.0.0.0/8," = cidrsOrNil "10.0.0.0/8" ∧
      ¬ EntriesKept PhysicalPeer.zero (sampleServer "10.0.0.0/8,") false := by
  refine ⟨by decide, by decide, fun kept => ?_⟩
  have agree := congrArg List.length kept.agree
  revert agree
  decide

end WgPortal.WireGuard.ControllerManager
