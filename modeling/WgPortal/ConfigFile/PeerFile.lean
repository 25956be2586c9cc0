import WgPortal.ConfigFile.ReadBack

/-! The configuration files of peers, as their template lays them out, and what they are read as. -/

namespace WgPortal.ConfigFile

open Domain Library.SectionFile
open Library.Calendar (timeString)

def configStyleRaw : String := "raw"
def configStyleWgQuick : String := "wgquick"

/-- The style that a request asks for, or the default -/
def getConfigStyle (query : Option String) : String :=
  let configStyle := query.getD configStyleWgQuick
  if configStyle ≠ configStyleWgQuick ∧ configStyle ≠ configStyleRaw then configStyleWgQuick
  else configStyle

section Template

variable (style : String) (p : Peer)

/-- `{{- if eq .Style "wgquick"}}` -/
def quick : Bool := style = "wgquick"

def peerCoreEntries : List Entry :=
  [("PrivateKey", p.interface.keyPair.privateKey)] ++
  optional (quick style) ("Address", cidrsToString p.interface.addresses)

/-- The servers, and the search domains behind them -/
def dnsText : String :=
  p.interface.dnsStr.value ++
    if p.interface.dnsSearchStr.value ≠ "" then ", " ++ p.interface.dnsSearchStr.value else ""

def peerMiscEntries : List Entry :=
  optional (quick style && p.interface.dnsStr.value ≠ "") ("DNS", dnsText p) ++
  optional (quick style && p.interface.mtu.value ≠ 0) ("MTU", toString p.interface.mtu.value) ++
  optional (quick style && p.interface.routingTable.value ≠ "" &&
    p.interface.routingTable.value ≠ "off") ("Table", p.interface.routingTable.value) ++
  optional (p.interface.firewallMark.value ≠ 0) ("FwMark", toString p.interface.firewallMark.value)

def peerHookEntries : List Entry :=
  optional (quick style && p.interface.preUp.value ≠ "") ("PreUp", p.interface.preUp.value) ++
  optional (quick style && p.interface.postUp.value ≠ "") ("PostUp", p.interface.postUp.value) ++
  optional (quick style && p.interface.preDown.value ≠ "") ("PreDown", p.interface.preDown.value) ++
  optional (quick style && p.interface.postDown.value ≠ "") ("PostDown", p.interface.postDown.value)

/-- The entries of the other side -/
def endpointEntries : List Entry :=
  [("PublicKey", p.endpointPublicKey.value), ("Endpoint", p.endpoint.value)] ++
  optional (p.allowedIPsStr.value ≠ "") ("AllowedIPs", p.allowedIPsStr.value) ++
  optional (p.presharedKey ≠ "") ("PresharedKey", p.presharedKey) ++
  optional (p.persistentKeepalive.value ≠ 0 && p.interface.type = .client)
    ("PersistentKeepalive", toString p.persistentKeepalive.value)

def peerTitleLines : List Line :=
  [remark "AUTOGENERATED FILE - DO NOT EDIT" "",
    remark "This file uses " (style ++ " format.")] ++
  optional (quick style)
    (remark "See https://man7.org/linux/man-pages/man8/wg-quick.8.html#CONFIGURATION" "") ++
  [remark "Lines starting with the -WGP- tag are used by" "",
    remark "the WireGuard Portal configuration parser." "",
    .blank,
    remark "-WGP- WIREGUARD PORTAL CONFIGURATION FILE" "",
    remark "-WGP- version " version,
    .blank]

/-- Of the type of a server, a blank line is left. -/
def peerTypeLines : List Line :=
  if p.interface.type = .server then [remark "-WGP- Peer type: server" "", .blank]
  else [remark "-WGP- Peer type: client" ""]

def peerInterfaceLines : List Line :=
  [.header "[Interface]".toList,
    remark "-WGP- Peer: " p.identifier,
    timeRemark "-WGP- Created: " p.base.createdAt,
    timeRemark "-WGP- Updated: " p.base.updatedAt,
    remark "-WGP- Display name: " p.displayName,
    remark "-WGP- PublicKey: " p.interface.keyPair.publicKey] ++
  peerTypeLines p ++
  [.blank, remark "Core settings" ""] ++
  (peerCoreEntries style p).map directive ++
  [.blank, remark "Misc. settings (optional)" ""] ++
  (peerMiscEntries style p).map directive ++
  optional (quick style) (remark "Interface hooks (optional)" "") ++
  (peerHookEntries style p).map directive

def peerFileLines : List Line :=
  peerTitleLines style ++ peerInterfaceLines style p ++
  [.blank, .header "[Peer]".toList] ++ (endpointEntries p).map directive

/-- `TemplateHandler.GetPeerConfig` -/
def getPeerConfig : String := String.ofList (render (peerFileLines style p))

/-- The peer's own section, and that of the other side -/
def peerFile : File where
  preamble := []
  sections :=
    [⟨"[Interface]".toList,
        (peerCoreEntries style p ++ peerMiscEntries style p ++ peerHookEntries style p).map
          Entry.chars⟩,
      ⟨"[Peer]".toList, (endpointEntries p).map Entry.chars⟩]

/-- What is shown in a comment says nothing behind its first line, and what is shown as a value is
one line without a comment, and without blanks around it. -/
structure CleanPeerFile : Prop where
  identifier : Quiet p.identifier.toList
  displayName : Quiet p.displayName.toList
  ownPublicKey : Quiet p.interface.keyPair.publicKey.toList
  privateKey : Plain p.interface.keyPair.privateKey.toList
  dns : quick style = true → p.interface.dnsStr.value ≠ "" → Plain (dnsText p).toList
  routingTable : quick style = true → Plain p.interface.routingTable.value.toList
  preUp : quick style = true → Plain p.interface.preUp.value.toList
  postUp : quick style = true → Plain p.interface.postUp.value.toList
  preDown : quick style = true → Plain p.interface.preDown.value.toList
  postDown : quick style = true → Plain p.interface.postDown.value.toList
  publicKey : Plain p.endpointPublicKey.value.toList
  endpoint : Plain p.endpoint.value.toList
  allowedIPsStr : Plain p.allowedIPsStr.value.toList
  presharedKey : Plain p.presharedKey.toList

end Template

section ReadBack

variable {style : String} {p : Peer}

theorem key_peerFile (style : String) (p : Peer) :
    ∀ entry ∈ peerCoreEntries style p ++ peerMiscEntries style p ++ peerHookEntries style p ++
      endpointEntries p, Key entry.1.toList := by
  simp +decide only [peerCoreEntries, peerMiscEntries, peerHookEntries, endpointEntries,
    List.forall_mem_append, List.forall_mem_cons, forall_optional, implies_true]

theorem header_faithful : (Line.header "[Interface]".toList).Faithful ∧
    (Line.header "[Peer]".toList).Faithful := by decide

theorem proper_peerFileLines (style : String) (p : Peer) :
    ∀ line ∈ peerFileLines style p, line.Proper := by
  have interface : (Line.header "[Interface]".toList).Proper := header_faithful.1
  have peer : (Line.header "[Peer]".toList).Proper := header_faithful.2
  have blank : Line.blank.Proper := trivial
  have remarks : ∀ label value, (remark label value).Proper := fun _ _ => trivial
  have times : ∀ label t, (timeRemark label t).Proper := fun _ _ => trivial
  have type : ∀ line ∈ peerTypeLines p, line.Proper := by
    rw [peerTypeLines]
    split <;> simp [blank, remarks]
  have own : ∀ entry ∈ peerCoreEntries style p ++ peerMiscEntries style p ++
      peerHookEntries style p ++ endpointEntries p, (directive entry).Proper := key_peerFile style p
  simp only [List.forall_mem_append] at own
  obtain ⟨⟨⟨core, misc⟩, hooks⟩, endpoint⟩ := own
  simp only [peerFileLines, peerTitleLines, peerInterfaceLines, List.forall_mem_append,
    List.forall_mem_cons, List.forall_mem_map, forall_optional, blank, remarks, times, interface,
    peer, List.not_mem_nil, false_imp_iff, implies_true, true_and, and_true]
  exact ⟨⟨⟨⟨type, core⟩, misc⟩, hooks⟩, endpoint⟩

theorem itemsOf_peerFileLines (style : String) (p : Peer) :
    itemsOf (peerFileLines style p) = (peerFile style p).items := by
  have blank : ∀ lines, itemsOf (.blank :: lines) = itemsOf lines := itemsOf_silent rfl
  have optionally : ∀ condition label value,
      itemsOf (optional condition (remark label value)) = [] := by
    intro condition label value
    cases condition <;> rfl
  have type : itemsOf (peerTypeLines p) = [] := by
    rw [peerTypeLines]
    split <;> rfl
  simp only [peerFile, File.items, Section.items, peerFileLines, peerTitleLines, peerInterfaceLines,
    itemsOf_append, itemsOf_directives, blank, itemsOf_remark, itemsOf_timeRemark, itemsOf_header,
    optionally, type, List.append_nil, List.nil_append, List.cons_append, List.map_append,
    List.map_nil, List.flatMap_cons, List.flatMap_nil, List.append_assoc]

theorem faithful_peerFileLines_iff (styled : Quiet (style ++ " format.").toList) :
    (∀ line ∈ peerFileLines style p, line.Faithful) ↔ CleanPeerFile style p := by
  have blank : Line.blank.Faithful := rfl
  have quiet : Quiet "".toList ∧ Quiet version.toList := by decide
  have none : Plain [] := by decide
  have type : ∀ line ∈ peerTypeLines p, line.Faithful := by
    rw [peerTypeLines]
    have noText : Quiet [] := by decide
    split <;> simp (disch := decide) [blank, faithful_remark, noText]
  simp (disch := decide) only [peerFileLines, peerTitleLines, peerInterfaceLines, peerCoreEntries,
    peerMiscEntries, peerHookEntries, endpointEntries, List.forall_mem_append, List.forall_mem_cons,
    List.forall_mem_map, forall_optional, faithful_remark, faithful_timeRemark, faithful_directive,
    blank, header_faithful, quiet, styled, plain_natural, plain_integer,
    (visible_cidrsToString _).plain, List.not_mem_nil, false_imp_iff, implies_true, true_and,
    and_true, Bool.and_eq_true, decide_eq_true_eq, and_imp, nonempty_imp_iff none, ne_eq]
  have table : (quick style = true → p.interface.routingTable.value ≠ "" →
      p.interface.routingTable.value ≠ "off" → Plain p.interface.routingTable.value.toList) ↔
      (quick style = true → Plain p.interface.routingTable.value.toList) := by
    refine forall_congr' fun _ => ⟨fun shown => ?_, fun clean _ _ => clean⟩
    by_cases empty : p.interface.routingTable.value = ""
    · rw [empty]
      exact none
    by_cases off : p.interface.routingTable.value = "off"
    · rw [off]
      decide
    · exact shown empty off
  constructor
  · rintro ⟨⟨⟨⟨⟨⟨identifier, displayName, ownPublicKey⟩, -⟩, privateKey⟩, dns, routingTable⟩,
      ⟨⟨preUp, postUp⟩, preDown⟩, postDown⟩, ⟨⟨publicKey, endpoint⟩, allowedIPsStr⟩, presharedKey⟩
    exact ⟨identifier, displayName, ownPublicKey, privateKey, dns, table.mp routingTable, preUp,
      postUp, preDown, postDown, publicKey, endpoint, allowedIPsStr, presharedKey⟩
  · intro clean
    exact ⟨⟨⟨⟨⟨⟨clean.identifier, clean.displayName, clean.ownPublicKey⟩, type⟩,
      clean.privateKey⟩, clean.dns, table.mpr clean.routingTable⟩,
      ⟨⟨clean.preUp, clean.postUp⟩, clean.preDown⟩, clean.postDown⟩,
      ⟨⟨clean.publicKey, clean.endpoint⟩, clean.allowedIPsStr⟩, clean.presharedKey⟩

theorem read_getPeerConfig (styled : Quiet (style ++ " format.").toList) :
    File.read (getPeerConfig style p).toList = peerFile style p ↔ CleanPeerFile style p := by
  have lines := @parse_render_append_iff (peerFileLines style p) []
    (by simpa using proper_peerFileLines style p)
  have all : (∀ line ∈ ([] : List Line), line.Single) := List.forall_mem_nil _
  rw [List.append_nil, faithful_peerFileLines_iff styled, and_iff_left all,
    itemsOf_peerFileLines] at lines
  rw [getPeerConfig, String.toList_ofList, File.read, ← lines]
  constructor
  · intro read
    refine ⟨[], ?_, rfl⟩
    rw [← read, File.items_ofItems, List.append_nil]
  · rintro ⟨items, parsed, none⟩
    rw [parsed, List.length_eq_zero_iff.mp none, List.append_nil, File.ofItems_items]

theorem getConfigStyle_eq (query : Option String) :
    getConfigStyle query = configStyleWgQuick ∨ getConfigStyle query = configStyleRaw := by
  unfold getConfigStyle
  dsimp only
  split
  · exact .inl rfl
  · rename_i known
    by_contra other
    exact known (not_or.mp other)

/-- In whatever style a file is asked for, it is read as the settings of the peer exactly if all
texts that are shown are clean. -/
theorem getPeerConfig_readBack (query : Option String) (p : Peer) :
    File.read (getPeerConfig (getConfigStyle query) p).toList = peerFile (getConfigStyle query) p ↔
      CleanPeerFile (getConfigStyle query) p := by
  apply read_getPeerConfig
  rcases getConfigStyle_eq query with same | same <;> rw [same] <;> decide

end ReadBack

end WgPortal.ConfigFile
