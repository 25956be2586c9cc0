import WgPortal.ConfigFile.ReadBack
import WgPortal.WireGuard.SyncSkip

/-! What the device gets from a configuration file, compared with what the merged peers gave it
before. -/

namespace WgPortal.ConfigFile

open Domain WireGuard SyncSkip Library.SectionFile WgController
open Adapters (Db)
open Library.NetIP (Network decimal digitVal digitVal_digitChar ofDigits_toDigits)

def isFileNameChar (c : Char) : Bool := (c.isAlphanum || c = '-') || c = '_'

def getConfigFileName (i : Interface) : String :=
  String.ofList ((i.identifier.toList.filter isFileNameChar).take 16) ++ ".conf"

/-- The name of the file to write, and its text -/
def persistInterfaceConfig (db : Db) (id : InterfaceIdentifier) : Except Error (String × String) :=
  match db.getInterface id with
  | .error err =>
    .error (.wrap ("failed to fetch interface " ++ id) (.wrap "failed to load interface" err))
  | .ok iface => .ok (getConfigFileName iface, getInterfaceConfig iface (db.getInterfacePeers id))

/-- The file with one item for each line that the template writes. -/
def writtenFile (i : Interface) (peers : List Peer) : File :=
  File.ofItems (itemsOf (fileLines i peers))

/-- What the lines with a key say -/
def valuesOf (key : String) (s : Section) : List (List Char) :=
  (s.entries.filter fun entry => entry.1 = key.toList).map Prod.snd

/-- A list of prefixes, which may be empty -/
def listOf (text : List Char) : Option (List Cidr) :=
  if text = [] then some [] else cidrsFromString (String.ofList text)

/-- The prefixes in all lines of allowed IPs, unless one is malformed. -/
def listedIn (s : Section) : Option (List Cidr) :=
  ((valuesOf "AllowedIPs" s).mapM listOf).map List.flatten

/-- From the section, the device gets what the physical peer has. -/
structure Restores (pp : PhysicalPeer) (s : Section) : Prop where
  name : s.name = "[Peer]".toList
  publicKey : valuesOf "PublicKey" s = [pp.keyPair.publicKey.toList]
  presharedKey : (valuesOf "PresharedKey" s).getLastD [] = pp.presharedKey.toList
  endpoint : (valuesOf "Endpoint" s).getLastD [] = pp.endpoint.toList
  persistentKeepalive :
    (valuesOf "PersistentKeepalive" s).getLastD "0".toList = (toString pp.persistentKeepalive).toList
  allowedIPs : ∃ cidrs, listedIn s = some cidrs ∧
    ∀ network, network ∈ cidrs.map Network.of ↔ network ∈ PhysicalPeer.getAllowedIPs pp

/-- The file has a section for the interface, and for each enabled peer one that restores what the
peer was merged to. -/
def Recovers (force : Bool) (peers : List Peer) (file : File) : Prop :=
  ∃ own sections, file = ⟨[], own :: sections⟩ ∧ own.name = "[Interface]".toList ∧
    List.Forall₂ (fun p s => ∀ pp, Restores (mergeToPhysicalPeer pp p force) s)
      (enabledPeers peers) sections

/-- Both texts of prefixes are empty, or can be parsed. -/
structure Parsable (p : Peer) : Prop where
  allowedIPsStr : p.allowedIPsStr.value = "" ∨ (cidrsFromString p.allowedIPsStr.value).isSome
  extraAllowedIPsStr : p.extraAllowedIPsStr = "" ∨ (cidrsFromString p.extraAllowedIPsStr).isSome

/-- Apart from the extra networks, the addresses are those that the merge allows. -/
def AddressesAllowed (p : Peer) (force : Bool) : Prop :=
  ∀ network, network ∉ networksOf p.extraAllowedIPsStr →
    (network ∈ p.interface.addresses.map Network.of ↔
      if usesAllowedIPsStr p force then network ∈ networksOf p.allowedIPsStr.value
      else network ∈ p.interface.addresses.map (Network.of ∘ Cidr.hostAddr))

/-- The merge allows nothing. -/
def NothingAllowed (p : Peer) (force : Bool) : Prop :=
  networksOf p.extraAllowedIPsStr = [] ∧
    if usesAllowedIPsStr p force then networksOf p.allowedIPsStr.value = []
    else p.interface.addresses = []

/-- The rules of the file and of the merge have the same outcome for the peer. -/
structure SameTunnel (force : Bool) (type : InterfaceType) (p : Peer) : Prop where
  settings : type ≠ .client → p.endpoint.value = "" ∧ p.persistentKeepalive.value = 0
  separated : type = .server → p.interface.addresses = [] → p.extraAllowedIPsStr = ""
  server : type = .server → AddressesAllowed p force
  client : type = .client → AllowedIPsListed p force
  others : type ≠ .server → type ≠ .client → NothingAllowed p force

section Written

def peerSection (type : InterfaceType) (p : Peer) : Section :=
  ⟨"[Peer]".toList, (peerEntries type p).map Entry.chars⟩

theorem itemsOf_allPeerLines (type : InterfaceType) (peers : List Peer) :
    itemsOf (allPeerLines type peers) =
      ((enabledPeers peers).map (peerSection type)).flatMap Section.items := by
  induction peers with
  | nil => rfl
  | cons p peers ih =>
    rw [allPeerLines_cons, itemsOf_append, ih, enabledPeers, enabledPeers, List.filter_cons]
    cases disabled : p.isDisabled with
    | true =>
      have silent : itemsOf (peerLines type p) = [] := by
        rw [peerLines, disabled, if_pos rfl]
        rfl
      rw [silent]
      rfl
    | false =>
      rw [itemsOf_peerLines disabled]
      rfl

theorem writtenFile_eq (i : Interface) (peers : List Peer) :
    writtenFile i peers =
      ⟨[], interfaceSection i :: (enabledPeers peers).map (peerSection i.type)⟩ := by
  rw [writtenFile, fileLines_eq, itemsOf_append, itemsOf_headLines, itemsOf_allPeerLines]
  exact File.ofItems_items ⟨[], interfaceSection i :: (enabledPeers peers).map (peerSection i.type)⟩

/-- Of clean texts and plain values, the text of the file is read as it was written. -/
theorem read_getInterfaceConfig {i : Interface} {peers : List Peer} (clean : CleanInterface i)
    (clean' : ∀ p ∈ peers, p.isDisabled = false →
      CleanPeer i.type p ∧ ∀ entry ∈ peerEntries i.type p, Plain entry.2.toList) :
    File.read (getInterfaceConfig i peers).toList = writtenFile i peers := by
  have blank : Line.blank.Faithful := rfl
  have faithful : ∀ line ∈ headLines i ++ allPeerLines i.type peers, line.Faithful := by
    rw [List.forall_mem_append, allPeerLines, List.forall_mem_append, List.forall_mem_singleton,
      and_iff_left blank, List.forall_mem_flatMap]
    refine ⟨(faithful_headLines_iff i).mpr clean, fun p mem => ?_⟩
    cases disabled : p.isDisabled with
    | true =>
      rw [peerLines, disabled, if_pos rfl, List.forall_mem_singleton]
      exact blank
    | false =>
      have single := (single_peerLines_iff i.type p).mpr fun _ => (clean' p mem disabled).1
      rw [peerLines_eq disabled, List.forall_mem_append] at single
      rw [peerLines_eq disabled, List.forall_mem_append, List.forall_mem_map]
      exact ⟨faithful_peerHead single.1, fun entry inside =>
        (faithful_entry (key_peer i.type p entry inside)).mpr ((clean' p mem disabled).2 entry inside)⟩
  rw [toList_getInterfaceConfig, File.read, parse_render, List.flatMap_congr faithful, writtenFile,
    fileLines_eq, itemsOf]

end Written

section Values

variable {α : Type} {condition : Bool} {a : α}

theorem optional_false : optional false a = [] := rfl

theorem filter_optional {q : α → Bool} :
    (optional condition a).filter q = optional (condition && q a) a := by
  cases condition with
  | true =>
    cases kept : q a <;> simp [optional, kept]
  | false => rfl

theorem map_optional {β : Type} (f : α → β) :
    (optional condition a).map f = optional condition (f a) := by
  cases condition <;> rfl

variable (type : InterfaceType) (p : Peer)

theorem valuesOf_peerSection (key : String) :
    valuesOf key (peerSection type p) =
      optional ("PublicKey" = key) p.interface.keyPair.publicKey.toList ++
      optional (p.presharedKey ≠ "" && "PresharedKey" = key) p.presharedKey.toList ++
      optional (type = .server && "AllowedIPs" = key) (serverAllowedIPs p).toList ++
      optional ((type = .client && p.allowedIPsStr.value ≠ "") && "AllowedIPs" = key)
        p.allowedIPsStr.value.toList ++
      optional ((p.endpoint.value ≠ "" && type = .client) && "Endpoint" = key)
        p.endpoint.value.toList ++
      optional ((p.persistentKeepalive.value ≠ 0 && type = .client) && "PersistentKeepalive" = key)
        (toString p.persistentKeepalive.value).toList := by
  have first : [("PublicKey", p.interface.keyPair.publicKey)] =
      optional true ("PublicKey", p.interface.keyPair.publicKey) := rfl
  rw [valuesOf, peerSection, List.filter_map, List.map_map, peerEntries, first]
  simp only [Function.comp_def, Entry.chars, String.toList_inj, List.filter_append,
    filter_optional, List.map_append, map_optional, Bool.true_and]

theorem values_publicKey : valuesOf "PublicKey" (peerSection type p) =
    [p.interface.keyPair.publicKey.toList] := by
  rw [valuesOf_peerSection]
  simp +decide only [decide_false, Bool.and_false, optional_false, List.append_nil]
  rfl

theorem values_presharedKey : valuesOf "PresharedKey" (peerSection type p) =
    optional (p.presharedKey ≠ "") p.presharedKey.toList := by
  rw [valuesOf_peerSection]
  simp +decide only [decide_false, decide_true, Bool.and_false, Bool.and_true, optional_false,
    List.append_nil, List.nil_append]

theorem values_endpoint : valuesOf "Endpoint" (peerSection type p) =
    optional (p.endpoint.value ≠ "" && type = .client) p.endpoint.value.toList := by
  rw [valuesOf_peerSection]
  simp +decide only [decide_false, decide_true, Bool.and_false, Bool.and_true, optional_false,
    List.append_nil, List.nil_append]

theorem values_persistentKeepalive : valuesOf "PersistentKeepalive" (peerSection type p) =
    optional (p.persistentKeepalive.value ≠ 0 && type = .client)
      (toString p.persistentKeepalive.value).toList := by
  rw [valuesOf_peerSection]
  simp +decide only [decide_false, decide_true, Bool.and_false, Bool.and_true, optional_false,
    List.append_nil, List.nil_append]

theorem values_allowedIPs : valuesOf "AllowedIPs" (peerSection type p) =
    optional (type = .server) (serverAllowedIPs p).toList ++
      optional (type = .client && p.allowedIPsStr.value ≠ "") p.allowedIPsStr.value.toList := by
  rw [valuesOf_peerSection]
  simp +decide only [decide_false, decide_true, Bool.and_false, Bool.and_true, optional_false,
    List.append_nil, List.nil_append]

end Values

section Settings

variable {type : InterfaceType} {p : Peer}

theorem getLastD_optional {condition : Bool} (text default : List Char) :
    (optional condition text).getLastD default = if condition then text else default := by
  cases condition <;> rfl

theorem presharedKey_kept : (valuesOf "PresharedKey" (peerSection type p)).getLastD [] =
    p.presharedKey.toList := by
  rw [values_presharedKey, getLastD_optional]
  by_cases none : p.presharedKey = ""
  · simp [none]
  · simp [none]

theorem endpoint_kept_iff : (valuesOf "Endpoint" (peerSection type p)).getLastD [] =
    p.endpoint.value.toList ↔ (type ≠ .client → p.endpoint.value = "") := by
  rw [values_endpoint, getLastD_optional]
  by_cases none : p.endpoint.value = ""
  · simp [none]
  · by_cases client : type = .client
    · simp [client]
    · simp [none, client]

/-- No other number is printed as zero. -/
theorem toString_eq_zero_iff {n : Int} : (toString n).toList = "0".toList ↔ n = 0 := by
  refine ⟨fun same => ?_, fun zero => by rw [zero]; rfl⟩
  cases n with
  | ofNat n =>
    have digits : decimal n = decimal 0 := Nat.toList_repr.symm.trans same
    have value := ofDigits_toDigits (by decide) digitVal_digitChar n
    rw [show Nat.toDigits 10 n = _ from digits] at value
    exact congrArg Int.ofNat (Option.some.inj (value.symm.trans (by decide)))
  | negSucc n =>
    rw [toList_negSucc] at same
    exact absurd (List.cons.inj same).1 (by decide)

theorem persistentKeepalive_kept_iff :
    (valuesOf "PersistentKeepalive" (peerSection type p)).getLastD "0".toList =
      (toString p.persistentKeepalive.value).toList ↔
    (type ≠ .client → p.persistentKeepalive.value = 0) := by
  rw [values_persistentKeepalive, getLastD_optional]
  by_cases client : type = .client
  · by_cases none : p.persistentKeepalive.value = 0
    · simp only [none, client]
      decide
    · simp [client, none]
  · rw [decide_eq_false client, Bool.and_false, if_neg Bool.false_ne_true, eq_comm,
      toString_eq_zero_iff, forall_prop_of_true client]

end Settings

section Lists

variable {type : InterfaceType} {p : Peer}

theorem listOf_eq {str : String} (parsable : str = "" ∨ (cidrsFromString str).isSome) :
    listOf str.toList = some (cidrsOrNil str) := by
  rcases parsable with rfl | some
  · decide
  · obtain ⟨cidrs, parsed⟩ := Option.isSome_iff_exists.mp some
    have shown : str.toList ≠ [] := by
      intro empty
      have none : cidrsFromString "" = Option.none := by decide
      rw [String.toList_eq_nil_iff.mp empty, none] at parsed
      cases parsed
    rw [listOf, if_neg shown, String.ofList_toList, cidrsOrNil, parsed, Option.getD_some]

theorem listedIn_of_one {text : List Char} {cidrs : Option (List Cidr)}
    (one : valuesOf "AllowedIPs" (peerSection type p) = [text]) (read : listOf text = cidrs) :
    listedIn (peerSection type p) = cidrs := by
  rw [listedIn, one, List.mapM_cons, List.mapM_nil, read]
  cases cidrs <;> simp

theorem values_server : valuesOf "AllowedIPs" (peerSection .server p) =
    [(serverAllowedIPs p).toList] := values_allowedIPs .server p

/-- On a server, the addresses are listed with the extra prefixes. -/
theorem listedIn_server (parsable : Parsable p)
    (separated : p.interface.addresses = [] → p.extraAllowedIPsStr = "") :
    listedIn (peerSection .server p) =
      some (p.interface.addresses ++ cidrsOrNil p.extraAllowedIPsStr) := by
  refine listedIn_of_one values_server ?_
  by_cases unaddressed : p.interface.addresses = []
  · rw [serverAllowedIPs, separated unaddressed, unaddressed]
    decide
  · have addresses := cidrsFromString_cidrsToString unaddressed
    by_cases none : p.extraAllowedIPsStr = ""
    · have empty : cidrsOrNil "" = [] := by decide
      rw [serverAllowedIPs, none, if_neg (not_not_intro rfl), String.append_empty, empty,
        listOf_eq (.inr (Option.isSome_of_eq_some addresses)), cidrsOrNil_cidrsToString,
        List.append_nil]
    · obtain ⟨extra, parsed⟩ :=
        Option.isSome_iff_exists.mp (parsable.extraAllowedIPsStr.resolve_left none)
      have both : cidrsFromString (serverAllowedIPs p) =
          some (p.interface.addresses ++ cidrsOrNil p.extraAllowedIPsStr) := by
        rw [serverAllowedIPs, if_pos none, cidrsFromString_append, addresses, cidrsOrNil, parsed]
        rfl
      rw [listOf_eq (.inr (Option.isSome_of_eq_some both)), cidrsOrNil, both, Option.getD_some]

/-- Without addresses, there is nothing before the first comma. -/
theorem listedIn_unseparated (unaddressed : p.interface.addresses = [])
    (extra : p.extraAllowedIPsStr ≠ "") : listedIn (peerSection .server p) = none := by
  refine listedIn_of_one values_server ?_
  have text : serverAllowedIPs p = "" ++ (", " ++ p.extraAllowedIPsStr) := by
    rw [serverAllowedIPs, if_pos extra, unaddressed]
    rfl
  have shown : (serverAllowedIPs p).toList ≠ [] := by
    rw [text]
    simp
  have empty : cidrsFromString "" = none := by decide
  rw [listOf, if_neg shown, String.ofList_toList, text, cidrsFromString_append, empty]
  rfl

theorem listedIn_client (parsable : Parsable p) :
    listedIn (peerSection .client p) = some (cidrsOrNil p.allowedIPsStr.value) := by
  by_cases none : p.allowedIPsStr.value = ""
  · have empty : cidrsOrNil "" = [] := by decide
    rw [listedIn, values_allowedIPs, none, empty]
    rfl
  · have one : valuesOf "AllowedIPs" (peerSection .client p) = [p.allowedIPsStr.value.toList] := by
      rw [values_allowedIPs]
      simp [optional, none]
    exact listedIn_of_one one (listOf_eq parsable.allowedIPsStr)

theorem listedIn_others (server : type ≠ .server) (client : type ≠ .client) :
    listedIn (peerSection type p) = some [] := by
  rw [listedIn, values_allowedIPs]
  simp [server, client, optional_false]

end Lists

section Tunnels

variable {force : Bool} {type : InterfaceType} {p : Peer}

/-- The device lets in from the section what it let in for the merged peer. -/
def SameAllowedIPs (force : Bool) (p : Peer) (s : Section) : Prop :=
  ∃ cidrs, listedIn s = some cidrs ∧
    ∀ network, network ∈ cidrs.map Network.of ↔ network ∈ (mergedAllowedIPs p force).map Network.of

theorem sameAllowedIPs_of {s : Section} {cidrs : List Cidr} (listed : listedIn s = some cidrs) :
    SameAllowedIPs force p s ↔
      ∀ network, network ∈ cidrs.map Network.of ↔
        network ∈ (mergedAllowedIPs p force).map Network.of := by
  refine ⟨fun ⟨other, read, same⟩ => ?_, fun same => ⟨cidrs, listed, same⟩⟩
  rw [listed] at read
  rw [Option.some.inj read]
  exact same

theorem or_iff_or_right {a b c : Prop} : (a ∨ c ↔ b ∨ c) ↔ (¬ c → (a ↔ b)) := by
  by_cases both : c
  · simp [both]
  · simp [both]

theorem sameAllowedIPs_server_iff (parsable : Parsable p) :
    SameAllowedIPs force p (peerSection .server p) ↔
      (p.interface.addresses = [] → p.extraAllowedIPsStr = "") ∧ AddressesAllowed p force := by
  by_cases separated : p.interface.addresses = [] → p.extraAllowedIPsStr = ""
  · rw [and_iff_right separated, sameAllowedIPs_of (listedIn_server parsable separated),
      mergedAllowedIPs_eq, AddressesAllowed]
    refine forall_congr' fun network => ?_
    have extra : network ∈ (cidrsOrNil p.extraAllowedIPsStr).map Network.of ↔
      network ∈ networksOf p.extraAllowedIPsStr := Iff.rfl
    rw [List.map_append, List.map_append, List.mem_append, List.mem_append, extra, or_iff_or_right]
    by_cases uses : usesAllowedIPsStr p force = true
    · rw [if_pos uses, if_pos uses, networksOf, networksOf]
    · rw [if_neg uses, if_neg uses, List.map_map]
  · refine iff_of_false ?_ fun both => separated both.1
    rintro ⟨cidrs, read, _⟩
    rw [Classical.not_imp] at separated
    rw [listedIn_unseparated separated.1 separated.2] at read
    cases read

theorem sameAllowedIPs_client_iff (parsable : Parsable p) :
    SameAllowedIPs force p (peerSection .client p) ↔ AllowedIPsListed p force :=
  (sameAllowedIPs_of (listedIn_client parsable)).trans mergedAllowedIPs_iff.symm

theorem sameAllowedIPs_others_iff (server : type ≠ .server) (client : type ≠ .client) :
    SameAllowedIPs force p (peerSection type p) ↔ NothingAllowed p force := by
  have empty : ∀ networks : List Network, (∀ network, network ∈ ([] : List Cidr).map Network.of ↔
      network ∈ networks) ↔ networks = [] := by
    intro networks
    rw [List.eq_nil_iff_forall_not_mem]
    exact forall_congr' fun network => by simp
  rw [sameAllowedIPs_of (listedIn_others server client), empty, mergedAllowedIPs_eq,
    NothingAllowed, List.map_append, List.append_eq_nil_iff, and_comm, networksOf]
  refine and_congr_right fun _ => ?_
  by_cases uses : usesAllowedIPsStr p force = true
  · rw [if_pos uses, if_pos uses, networksOf]
  · rw [if_neg uses, if_neg uses, List.map_eq_nil_iff, List.map_eq_nil_iff]

/-- Of an enabled peer, the section is what the merge gives the device exactly if both rules have
the same outcome. -/
theorem restores_iff (parsable : Parsable p) :
    (∀ pp, Restores (mergeToPhysicalPeer pp p force) (peerSection type p)) ↔
      SameTunnel force type p := by
  have parts : (∀ pp, Restores (mergeToPhysicalPeer pp p force) (peerSection type p)) ↔
      (type ≠ .client → p.endpoint.value = "") ∧
      (type ≠ .client → p.persistentKeepalive.value = 0) ∧
      SameAllowedIPs force p (peerSection type p) := by
    rw [← endpoint_kept_iff, ← persistentKeepalive_kept_iff]
    constructor
    · intro restores
      have any := restores PhysicalPeer.zero
      exact ⟨any.endpoint, any.persistentKeepalive, any.allowedIPs⟩
    · rintro ⟨endpoint, persistentKeepalive, allowedIPs⟩ pp
      exact ⟨rfl, values_publicKey type p, presharedKey_kept, endpoint, persistentKeepalive,
        allowedIPs⟩
  rw [parts]
  constructor
  · rintro ⟨endpoint, persistentKeepalive, allowedIPs⟩
    refine ⟨fun other => ⟨endpoint other, persistentKeepalive other⟩, ?_, ?_, ?_, ?_⟩
    · rintro rfl
      exact ((sameAllowedIPs_server_iff parsable).mp allowedIPs).1
    · rintro rfl
      exact ((sameAllowedIPs_server_iff parsable).mp allowedIPs).2
    · rintro rfl
      exact (sameAllowedIPs_client_iff parsable).mp allowedIPs
    · exact fun server client => (sameAllowedIPs_others_iff server client).mp allowedIPs
  · intro same
    refine ⟨fun other => (same.settings other).1, fun other => (same.settings other).2, ?_⟩
    by_cases server : type = .server
    · subst server
      exact (sameAllowedIPs_server_iff parsable).mpr ⟨same.separated rfl, same.server rfl⟩
    · by_cases client : type = .client
      · subst client
        exact (sameAllowedIPs_client_iff parsable).mpr (same.client rfl)
      · exact (sameAllowedIPs_others_iff server client).mpr (same.others server client)

end Tunnels

theorem recovers_iff_restores {force : Bool} {i : Interface} {peers : List Peer} :
    Recovers force peers (writtenFile i peers) ↔ ∀ p ∈ enabledPeers peers,
      ∀ pp, Restores (mergeToPhysicalPeer pp p force) (peerSection i.type p) := by
  rw [writtenFile_eq]
  constructor
  · rintro ⟨own, sections, same, _, restores⟩
    rw [← (List.cons.inj (File.mk.inj same).2).2, List.forall₂_map_right_iff,
      List.forall₂_same] at restores
    exact restores
  · intro restores
    refine ⟨interfaceSection i, _, rfl, rfl, ?_⟩
    rw [List.forall₂_map_right_iff, List.forall₂_same]
    exact restores

/-- The written file recovers the enabled peers exactly if, for each of them, the rules of the file
and of the merge have the same outcome. -/
theorem recovers_iff (force : Bool) (i : Interface) (peers : List Peer)
    (parsable : ∀ p ∈ peers, Parsable p) :
    Recovers force peers (writtenFile i peers) ↔
      ∀ p ∈ peers, p.isDisabled = false → SameTunnel force i.type p := by
  rw [recovers_iff_restores]
  simp only [enabledPeers, List.mem_filter, Bool.not_eq_true', and_imp]
  exact forall₂_congr fun p mem => imp_congr_right fun _ => restores_iff (parsable p mem)

/-- A server that a client interface connects to. -/
def remotePeer : Peer :=
  { Peer.zero with
    identifier := "key"
    interfaceIdentifier := "wg1"
    allowedIPsStr := ⟨"10.0.0.0/8", false⟩
    endpoint := ⟨"198.51.100.1:51820", false⟩
    persistentKeepalive := ⟨25, false⟩
    interface := { Peer.zero.interface with type := .server } }

def clientInterface : Interface := { Interface.zero with identifier := "wg1", type := .client }

theorem remotePeer_recovered :
    Recovers true [remotePeer] (writtenFile clientInterface [remotePeer]) := by
  refine (recovers_iff true clientInterface [remotePeer] ?_).mpr ?_
  · rw [List.forall_mem_singleton]
    exact ⟨.inr (by decide +kernel), .inl rfl⟩
  · rw [List.forall_mem_singleton]
    intro _
    refine ⟨fun other => absurd rfl other, fun server => (by cases server),
      fun server => (by cases server), fun _ => ?_, fun _ other => absurd rfl other⟩
    have none : networksOf remotePeer.extraAllowedIPsStr = [] := by decide +kernel
    rw [AllowedIPsListed, if_pos (by decide +kernel), none]
    exact List.forall_mem_nil _

/-- A client with a network behind it. -/
def gatewayPeer : Peer :=
  { Peer.zero with
    identifier := "key"
    interfaceIdentifier := "wg0"
    allowedIPsStr := ⟨"10.1.0.0/16", false⟩
    interface :=
      { Peer.zero.interface with
        type := .client
        addresses := [⟨⟨.v4, 0x0a000002, sampleAddr_lt⟩, 32, sampleBits_le⟩] } }

/-- The device lets the network in, and after the file is read again only the address. -/
theorem gatewayPeer_lost :
    ¬ Recovers false [gatewayPeer] (writtenFile serverInterface [gatewayPeer]) := by
  intro recovers
  have parsable : Parsable gatewayPeer := ⟨.inr (by decide +kernel), .inl rfl⟩
  have restores := recovers_iff_restores.mp recovers gatewayPeer (by decide +kernel)
  have allowed := ((restores_iff parsable).mp restores).server rfl
    (Network.of ⟨⟨.v4, 0x0a000002, sampleAddr_lt⟩, 32, sampleBits_le⟩) (by decide +kernel)
  rw [if_pos (by decide +kernel)] at allowed
  revert allowed
  decide +kernel

/-- What is persisted is read back as it was written, unless a text is in the way. -/
theorem read_persisted {db : Db} {id : InterfaceIdentifier} {i : Interface}
    (stored : db.getInterface id = .ok i) (clean : CleanInterface i)
    (clean' : ∀ p ∈ db.getInterfacePeers id, p.isDisabled = false →
      CleanPeer i.type p ∧ ∀ entry ∈ peerEntries i.type p, Plain entry.2.toList) :
    ∃ text, persistInterfaceConfig db id = .ok (getConfigFileName i, text) ∧
      File.read text.toList = writtenFile i (db.getInterfacePeers id) := by
  refine ⟨_, ?_, read_getInterfaceConfig clean clean'⟩
  rw [persistInterfaceConfig, stored]

end WgPortal.ConfigFile
