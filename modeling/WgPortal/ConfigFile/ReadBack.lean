import WgPortal.ConfigFile.Template
import WgPortal.WireGuard.Peers

/-! What a configuration file is read as, when any text may have been stored. -/

namespace WgPortal.ConfigFile

open Config Domain WireGuard Library.SectionFile
open Library.NetIP (join mem_join textChars)
open Library.Calendar (oneLine_timeString)

def Entry.chars (entry : Entry) : List Char × List Char := (entry.1.toList, entry.2.toList)

/-- The section of the interface, with its own values and hooks -/
def interfaceSection (i : Interface) : Section :=
  ⟨"[Interface]".toList, (coreEntries i ++ miscEntries i ++ hookEntries i).map Entry.chars⟩

/-- A section with the keys that the peer has values for. -/
structure IsPeerSection (type : InterfaceType) (p : Peer) (s : Section) : Prop where
  name : s.name = "[Peer]".toList
  keys : s.entries.map Prod.fst = (peerEntries type p).map fun entry => entry.1.toList

def enabledPeers (peers : List Peer) : List Peer := peers.filter fun p => !p.isDisabled

/-- The file is read as one section for the interface, and as one for each enabled peer. -/
def InjectionFree (i : Interface) (peers : List Peer) : Prop :=
  ∃ sections, File.read (getInterfaceConfig i peers).toList = ⟨[], interfaceSection i :: sections⟩ ∧
    List.Forall₂ (IsPeerSection i.type) (enabledPeers peers) sections

/-- What is shown in a comment says nothing behind its first line, and what is shown as a value
is one line without a comment, and without blanks around it. -/
structure CleanInterface (i : Interface) : Prop where
  identifier : Quiet i.identifier.toList
  displayName : Quiet i.displayName.toList
  publicKey : Quiet i.keyPair.publicKey.toList
  privateKey : Plain i.keyPair.privateKey.toList
  dnsStr : i.type = .client → Plain i.dnsStr.toList
  routingTable : Plain i.routingTable.toList
  preUp : Plain i.preUp.toList
  postUp : Plain i.postUp.toList
  preDown : Plain i.preDown.toList
  postDown : Plain i.postDown.toList

/-- Nothing of the peer that is shown on an interface of a type says anything behind its first
line. -/
structure CleanPeer (type : InterfaceType) (p : Peer) : Prop where
  displayName : Quiet p.displayName.toList
  identifier : Quiet p.identifier.toList
  privateKey : Quiet p.interface.keyPair.privateKey.toList
  publicKey : Quiet p.interface.keyPair.publicKey.toList
  presharedKey : Quiet p.presharedKey.toList
  extraAllowedIPsStr : type = .server → Quiet p.extraAllowedIPsStr.toList
  allowedIPsStr : type = .client → Quiet p.allowedIPsStr.value.toList
  endpoint : type = .client → Quiet p.endpoint.value.toList

section Texts

theorem visible_decimal {text : List Char} (digits : ∀ c ∈ text, c.isDigit ∨ c = '-') :
    Visible text := by
  intro c mem
  have visible : ∀ c : Char, c.isDigit ∨ c = '-' → isBlank c = false ∧ c ≠ '#' := by
    rintro c (digit | rfl)
    · constructor
      · by_contra blank
        have blanks : ∀ c ∈ [' ', '\t', '\n', '\x0b', '\x0c', '\r'], c.isDigit = false :=
          List.all_iff_forall_prop.mp (by decide)
        rw [Bool.not_eq_false, isBlank, decide_eq_true_iff] at blank
        rw [blanks c blank] at digit
        cases digit
      · rintro rfl
        cases digit
    · decide
  exact visible c (digits c mem)

theorem plain_natural (n : ℕ) : Plain (toString n).toList := by
  refine (visible_decimal fun c mem => .inl ?_).plain
  rw [Nat.toString_eq_repr, Nat.toList_repr] at mem
  exact Nat.isDigit_of_mem_toDigits (by decide) (by decide) mem

theorem plain_integer (n : Int) : Plain (toString n).toList :=
  (visible_decimal fun _ mem => digit_of_mem_toString mem).plain

theorem visible_cidrsToString (cidrs : List Cidr) : Visible (cidrsToString cidrs).toList := by
  have inText : ∀ c ∈ ',' :: textChars, isBlank c = false ∧ c ≠ '#' :=
    List.all_iff_forall_prop.mp (by decide)
  intro c mem
  rw [cidrsToString, String.toList_ofList] at mem
  refine inText c (List.mem_cons.mpr ((mem_join mem).imp_right ?_))
  rintro ⟨part, inside, mem⟩
  obtain ⟨p, _, rfl⟩ := List.mem_map.mp inside
  exact p.mem_text mem

end Texts

section Lines

variable {α : Type} {condition : Bool} {a : α} {P : α → Prop}

theorem forall_optional : (∀ b ∈ optional condition a, P b) ↔ (condition = true → P a) := by
  cases condition with
  | true => simp [optional]
  | false => simp [optional]

theorem single_remark {label value : String} (oneLine : '\n' ∉ label.toList) :
    (remark label value).Single ↔ Quiet value.toList := by
  have front : '\n' ∉ ' ' :: label.toList := by
    rw [List.mem_cons, not_or]
    exact ⟨by decide, oneLine⟩
  rw [remark, single_comment, quiet_append front]

theorem faithful_remark {label value : String} (oneLine : '\n' ∉ label.toList) :
    (remark label value).Faithful ↔ Quiet value.toList :=
  faithful_comment.trans (single_comment.symm.trans (single_remark oneLine))

theorem faithful_timeRemark {label : String} (oneLine : '\n' ∉ label.toList) (t : Time) :
    (timeRemark label t).Faithful := by
  refine faithful_comment.mpr (quiet_of_oneLine ?_)
  rw [List.mem_append, List.mem_cons, not_or, not_or]
  exact ⟨⟨by decide, oneLine⟩, oneLine_timeString t⟩

theorem faithful_directive {key value : String} (proper : Key key.toList) :
    (directive (key, value)).Faithful ↔ Plain value.toList := faithful_entry proper

theorem single_directive {key value : String} (proper : Key key.toList) :
    (directive (key, value)).Single ↔ Quiet value.toList := single_entry proper

theorem key_interface (i : Interface) :
    ∀ entry ∈ coreEntries i ++ miscEntries i ++ hookEntries i, Key entry.1.toList := by
  simp +decide only [coreEntries, miscEntries, hookEntries, List.forall_mem_append,
    List.forall_mem_cons, forall_optional, implies_true]

theorem key_peer (type : InterfaceType) (p : Peer) :
    ∀ entry ∈ peerEntries type p, Key entry.1.toList := by
  simp +decide only [peerEntries, List.forall_mem_append, List.forall_mem_cons, forall_optional,
    implies_true]

/-- The lines in front of the peers -/
def headLines (i : Interface) : List Line :=
  titleLines ++ interfaceLines i ++ [.blank, .comment [], remark "Peers" "", .comment [], .blank]

def allPeerLines (type : InterfaceType) (peers : List Peer) : List Line :=
  peers.flatMap (peerLines type) ++ [.blank]

theorem fileLines_eq (i : Interface) (peers : List Peer) :
    fileLines i peers = headLines i ++ allPeerLines i.type peers := List.append_assoc ..

/-- What the template leaves out says nothing anyway. -/
theorem nonempty_imp_iff {P : List Char → Prop} (empty : P []) {value : String} :
    (value ≠ "" → P value.toList) ↔ P value.toList := by
  refine ⟨fun shown => ?_, fun clean _ => clean⟩
  by_cases none : value = ""
  · rw [none]
    exact empty
  · exact shown none

theorem faithful_headLines_iff (i : Interface) :
    (∀ line ∈ headLines i, line.Faithful) ↔ CleanInterface i := by
  have blank : Line.blank.Faithful := rfl
  have comment : (Line.comment []).Faithful := rfl
  have header : (Line.header "[Interface]".toList).Faithful := by decide
  have quiet : Quiet "".toList ∧ Quiet version.toList := by decide
  have type : Quiet (typeText i.type).toList := by
    cases i.type <;> decide
  have plain : Plain "true".toList := by decide
  have none : Plain [] := by decide
  have off : (¬ i.routingTable = "off" → Plain i.routingTable.toList) ↔
      Plain i.routingTable.toList := by
    refine ⟨fun shown => ?_, fun clean _ => clean⟩
    by_cases same : i.routingTable = "off"
    · rw [same]
      decide
    · exact shown same
  simp (disch := decide) only [headLines, titleLines, interfaceLines, coreEntries, miscEntries,
    hookEntries, List.forall_mem_append, List.forall_mem_cons, List.forall_mem_map, forall_optional,
    faithful_remark, faithful_timeRemark, faithful_directive, blank, comment, header, quiet, type,
    plain, plain_natural, plain_integer, (visible_cidrsToString _).plain, List.not_mem_nil,
    false_imp_iff, implies_true, true_and, and_true, Bool.and_eq_true, decide_eq_true_eq, and_imp,
    nonempty_imp_iff none, ne_eq, off]
  have onClient : (i.dnsStr ≠ "" → i.type = .client → Plain i.dnsStr.toList) ↔
      (i.type = .client → Plain i.dnsStr.toList) :=
    nonempty_imp_iff (P := fun text => i.type = .client → Plain text) fun _ => none
  constructor
  · rintro ⟨⟨⟨⟨identifier, displayName, publicKey⟩, privateKey⟩, dnsStr, routingTable⟩,
      ⟨⟨preUp, postUp⟩, preDown⟩, postDown⟩
    exact ⟨identifier, displayName, publicKey, privateKey, onClient.mp dnsStr, routingTable, preUp,
      postUp, preDown, postDown⟩
  · intro clean
    exact ⟨⟨⟨⟨clean.identifier, clean.displayName, clean.publicKey⟩, clean.privateKey⟩,
      onClient.mpr clean.dnsStr, clean.routingTable⟩,
      ⟨⟨clean.preUp, clean.postUp⟩, clean.preDown⟩, clean.postDown⟩

/-- The keys of a server's peers are followed by the addresses of the peer. -/
theorem quiet_serverAllowedIPs (p : Peer) :
    Quiet (serverAllowedIPs p).toList ↔ Quiet p.extraAllowedIPsStr.toList := by
  have front : '\n' ∉ (cidrsToString p.interface.addresses).toList :=
    (visible_cidrsToString _).plain.oneLine
  by_cases none : p.extraAllowedIPsStr = ""
  · rw [serverAllowedIPs, if_neg (not_not_intro none), String.append_empty, none]
    exact iff_of_true (quiet_of_oneLine front) (by decide)
  · have front' : '\n' ∉ (cidrsToString p.interface.addresses).toList ++ ", ".toList := by
      rw [List.mem_append, not_or]
      exact ⟨front, by decide⟩
    rw [serverAllowedIPs, if_pos none, String.toList_append, String.toList_append,
      ← List.append_assoc, quiet_append front']

theorem single_peerLines_iff (type : InterfaceType) (p : Peer) :
    (∀ line ∈ peerLines type p, line.Single) ↔ (p.isDisabled = false → CleanPeer type p) := by
  have blank : Line.blank.Single := rfl
  rw [peerLines, List.forall_mem_cons, and_iff_right blank]
  cases disabled : p.isDisabled with
  | true => simp
  | false =>
    have header : (Line.header "[Peer]".toList).Single := by
      have faithful : (Line.header "[Peer]".toList).Faithful := by decide
      exact faithful.single
    have time : ∀ (label : String) (t : Time), '\n' ∉ label.toList → (timeRemark label t).Single :=
      fun label t oneLine => (faithful_timeRemark oneLine t).single
    have number : ∀ n : Int, Quiet (toString n).toList := fun n => (plain_integer n).quiet
    have none : Quiet [] := by decide
    rw [if_neg Bool.false_ne_true]
    simp (disch := decide) only [List.forall_mem_append, List.forall_mem_cons,
      List.forall_mem_map, forall_optional, peerEntries, header, time, single_remark,
      single_directive, quiet_serverAllowedIPs, number, List.not_mem_nil, false_imp_iff, implies_true,
      true_and, and_true, Bool.and_eq_true, decide_eq_true_eq, and_imp, nonempty_imp_iff none,
      ne_eq, true_imp_iff]
    have onClient : (p.endpoint.value ≠ "" → type = .client → Quiet p.endpoint.value.toList) ↔
        (type = .client → Quiet p.endpoint.value.toList) :=
      nonempty_imp_iff (P := fun text => type = .client → Quiet text) fun _ => none
    constructor
    · rintro ⟨⟨⟨displayName, identifier, _⟩, privateKey⟩,
        ⟨⟨⟨publicKey, presharedKey⟩, extraAllowedIPsStr⟩, allowedIPsStr⟩, endpoint⟩
      exact ⟨displayName, identifier, privateKey, publicKey, presharedKey, extraAllowedIPsStr,
        allowedIPsStr, onClient.mp endpoint⟩
    · intro clean
      exact ⟨⟨⟨clean.displayName, clean.identifier, clean.displayName⟩, clean.privateKey⟩,
        ⟨⟨⟨clean.publicKey, clean.presharedKey⟩, clean.extraAllowedIPsStr⟩, clean.allowedIPsStr⟩,
        onClient.mpr clean.endpoint⟩

end Lines

section Sections

theorem itemsOf_append (first rest : List Line) :
    itemsOf (first ++ rest) = itemsOf first ++ itemsOf rest := List.flatMap_append

theorem itemsOf_directives (entries : List Entry) :
    itemsOf (entries.map directive) =
      (entries.map Entry.chars).map fun entry => .entry entry.1 entry.2 := by
  induction entries with
  | nil => rfl
  | cons entry entries ih => exact congrArg (_ :: ·) ih

theorem itemsOf_silent {line : Line} (silent : line.item = none) (lines : List Line) :
    itemsOf (line :: lines) = itemsOf lines := by
  rw [itemsOf, List.flatMap_cons, silent]
  rfl

theorem itemsOf_remark (label value : String) (lines : List Line) :
    itemsOf (remark label value :: lines) = itemsOf lines := itemsOf_silent rfl lines

theorem itemsOf_timeRemark (label : String) (t : Time) (lines : List Line) :
    itemsOf (timeRemark label t :: lines) = itemsOf lines := itemsOf_silent rfl lines

theorem itemsOf_header (name : List Char) (lines : List Line) :
    itemsOf (.header name :: lines) = .header name :: itemsOf lines := rfl

theorem itemsOf_headLines (i : Interface) : itemsOf (headLines i) = (interfaceSection i).items := by
  have blank : ∀ lines, itemsOf (.blank :: lines) = itemsOf lines := itemsOf_silent rfl
  have comment : ∀ lines, itemsOf (.comment [] :: lines) = itemsOf lines := itemsOf_silent rfl
  have none : itemsOf [] = [] := rfl
  dsimp only [interfaceSection, Section.items]
  rw [headLines, interfaceLines]
  simp only [itemsOf_append, itemsOf_directives, titleLines, blank, comment, itemsOf_remark,
    itemsOf_timeRemark, itemsOf_header, none, List.append_nil, List.nil_append, List.cons_append,
    List.map_append]

/-- The lines of an enabled peer in front of its entries -/
def peerHead (p : Peer) : List Line :=
  [.blank, .header "[Peer]".toList,
    remark "friendly_name = " p.displayName,
    remark "-WGP- Peer: " p.identifier,
    timeRemark "-WGP- Created: " p.base.createdAt,
    timeRemark "-WGP- Updated: " p.base.updatedAt,
    remark "-WGP- Display name: " p.displayName] ++
  optional (p.interface.keyPair.privateKey ≠ "")
    (remark "-WGP- PrivateKey: " p.interface.keyPair.privateKey)

theorem peerLines_eq {type : InterfaceType} {p : Peer} (enabled : p.isDisabled = false) :
    peerLines type p = peerHead p ++ (peerEntries type p).map directive := by
  rw [peerLines, enabled, if_neg Bool.false_ne_true, ← List.cons_append, ← List.cons_append,
    peerHead]

theorem itemsOf_peerHead (p : Peer) : itemsOf (peerHead p) = [.header "[Peer]".toList] := by
  have silent : ∀ condition label value,
      itemsOf (optional condition (remark label value)) = [] := by
    intro condition label value
    cases condition <;> rfl
  rw [peerHead, itemsOf_append, silent]
  rfl

/-- The items of a peer -/
theorem itemsOf_peerLines {type : InterfaceType} {p : Peer} (enabled : p.isDisabled = false) :
    itemsOf (peerLines type p) = .header "[Peer]".toList ::
      ((peerEntries type p).map Entry.chars).map fun entry => .entry entry.1 entry.2 := by
  rw [peerLines_eq enabled, itemsOf_append, itemsOf_peerHead, itemsOf_directives,
    List.singleton_append]

theorem allPeerLines_cons (type : InterfaceType) (p : Peer) (peers : List Peer) :
    allPeerLines type (p :: peers) = peerLines type p ++ allPeerLines type peers := by
  rw [allPeerLines, List.flatMap_cons, List.append_assoc, allPeerLines]

variable {type : InterfaceType} {peers : List Peer}

/-- Sections with the keys of the peers have as many items as were written. -/
theorem length_sections {sections : List Section}
    (same : List.Forall₂ (IsPeerSection type) (enabledPeers peers) sections) :
    (sections.flatMap Section.items).length = (itemsOf (allPeerLines type peers)).length := by
  induction peers generalizing sections with
  | nil =>
    cases same
    rfl
  | cons p peers ih =>
    rw [allPeerLines_cons, itemsOf_append, List.length_append]
    cases disabled : p.isDisabled with
    | true =>
      rw [enabledPeers, List.filter_cons, disabled] at same
      have silent : itemsOf (peerLines type p) = [] := by
        rw [peerLines, disabled, if_pos rfl]
        rfl
      rw [silent, List.length_nil, Nat.zero_add]
      exact ih same
    | false =>
      rw [enabledPeers, List.filter_cons, disabled] at same
      obtain ⟨s, sections, isSection, rest, rfl⟩ := List.forall₂_cons_left_iff.mp same
      have keys := congrArg List.length isSection.keys
      rw [List.length_map, List.length_map] at keys
      rw [List.flatMap_cons, List.length_append, ih rest, itemsOf_peerLines disabled, Section.items,
        List.length_cons, List.length_cons, List.length_map, List.length_map, List.length_map, keys]

theorem exists_entries {entries : List Entry} (proper : ∀ entry ∈ entries, Key entry.1.toList)
    (single : ∀ entry ∈ entries, (directive entry).Single) :
    ∃ read : List (List Char × List Char),
      (entries.map directive).flatMap (fun line => parse line.text) =
        read.map (fun entry => .entry entry.1 entry.2) ∧
      read.map Prod.fst = entries.map fun entry => entry.1.toList := by
  induction entries with
  | nil => exact ⟨[], rfl, rfl⟩
  | cons entry entries ih =>
    rw [List.forall_mem_cons] at proper single
    obtain ⟨value, parsed⟩ := parse_of_single proper.1 single.1
    obtain ⟨read, rest, keys⟩ := ih proper.2 single.2
    refine ⟨(entry.1.toList, value) :: read, ?_, congrArg (_ :: ·) keys⟩
    rw [List.map_cons, List.flatMap_cons, rest, List.map_cons]
    exact congrArg (· ++ _) parsed

/-- Lines without a value are read as they were written unless they say too much. -/
theorem faithful_peerHead {p : Peer} (single : ∀ line ∈ peerHead p, line.Single) :
    ∀ line ∈ peerHead p, line.Faithful := by
  have silent : ∀ line : Line, line.item = none → line.Single → line.Faithful := by
    intro line silent single
    rw [Line.Single, silent] at single
    rw [Line.Faithful, silent]
    exact List.length_eq_zero_iff.mp single
  have remarks : ∀ label value, (remark label value).Single → (remark label value).Faithful :=
    fun _ _ => silent _ rfl
  have header : (Line.header "[Peer]".toList).Faithful := by decide
  have blank : Line.blank.Faithful := rfl
  have time := fun label t => silent (timeRemark label t) rfl
  simp only [peerHead, List.forall_mem_append, List.forall_mem_cons, forall_optional] at single ⊢
  obtain ⟨⟨_, _, first, identifier, created, updated, displayName, none⟩, key⟩ := single
  exact ⟨⟨blank, header, remarks _ _ first, remarks _ _ identifier, time _ _ created,
    time _ _ updated, remarks _ _ displayName, List.forall_mem_nil _⟩,
    fun shown => remarks _ _ (key shown)⟩

/-- A peer of which no line says too much is read as its section. -/
theorem exists_section {p : Peer} (enabled : p.isDisabled = false)
    (single : ∀ line ∈ peerLines type p, line.Single) :
    ∃ s, (peerLines type p).flatMap (fun line => parse line.text) = s.items ∧
      IsPeerSection type p s := by
  rw [peerLines_eq enabled, List.forall_mem_append, List.forall_mem_map] at single
  obtain ⟨read, parsed, keys⟩ := exists_entries (key_peer type p) single.2
  refine ⟨⟨"[Peer]".toList, read⟩, ?_, rfl, keys⟩
  rw [peerLines_eq enabled, List.flatMap_append, parsed,
    List.flatMap_congr (faithful_peerHead single.1)]
  exact congrArg (· ++ _) (itemsOf_peerHead p)

theorem exists_sections (single : ∀ line ∈ allPeerLines type peers, line.Single) :
    ∃ sections : List Section,
      (allPeerLines type peers).flatMap (fun line => parse line.text) =
        sections.flatMap Section.items ∧
      List.Forall₂ (IsPeerSection type) (enabledPeers peers) sections := by
  induction peers with
  | nil => exact ⟨[], rfl, .nil⟩
  | cons p peers ih =>
    rw [allPeerLines_cons, List.forall_mem_append] at single
    obtain ⟨sections, parsed, same⟩ := ih single.2
    rw [allPeerLines_cons, List.flatMap_append, parsed]
    cases disabled : p.isDisabled with
    | true =>
      rw [enabledPeers, List.filter_cons, disabled]
      refine ⟨sections, ?_, same⟩
      rw [peerLines, disabled, if_pos rfl]
      rfl
    | false =>
      obtain ⟨s, parsed', isSection⟩ := exists_section disabled single.1
      rw [enabledPeers, List.filter_cons, disabled]
      exact ⟨s :: sections, by rw [parsed', List.flatMap_cons], .cons isSection same⟩

theorem proper_fileLines (i : Interface) (peers : List Peer) :
    ∀ line ∈ headLines i ++ allPeerLines i.type peers, line.Proper := by
  have interface : (Line.header "[Interface]".toList).Proper := by
    have faithful : (Line.header "[Interface]".toList).Faithful := by decide
    exact faithful
  have peer : (Line.header "[Peer]".toList).Proper := by
    have faithful : (Line.header "[Peer]".toList).Faithful := by decide
    exact faithful
  have blank : Line.blank.Proper := trivial
  have comment : ∀ text, (Line.comment text).Proper := fun _ => trivial
  have remarks : ∀ label value, (remark label value).Proper := fun _ _ => trivial
  have times : ∀ label t, (timeRemark label t).Proper := fun _ _ => trivial
  have own : ∀ entry ∈ coreEntries i ++ miscEntries i ++ hookEntries i, (directive entry).Proper :=
    key_interface i
  have peers' : ∀ p ∈ peers, ∀ line ∈ peerLines i.type p, line.Proper := by
    intro p _
    cases disabled : p.isDisabled with
    | true =>
      rw [peerLines, disabled, if_pos rfl]
      exact List.forall_mem_singleton.mpr blank
    | false =>
      rw [peerLines_eq disabled, List.forall_mem_append, List.forall_mem_map]
      refine ⟨?_, key_peer i.type p⟩
      simp only [peerHead, List.forall_mem_append, List.forall_mem_cons, forall_optional, blank,
        peer, remarks, times, List.not_mem_nil, false_imp_iff, implies_true, and_self]
  simp only [List.forall_mem_append] at own
  simp only [headLines, titleLines, interfaceLines, allPeerLines, List.forall_mem_append,
    List.forall_mem_cons, List.forall_mem_map, List.forall_mem_flatMap, blank, comment, remarks,
    times, interface, List.not_mem_nil, false_imp_iff, implies_true,
    and_true, true_and]
  exact ⟨own, peers'⟩

end Sections

theorem faithful_lines_iff (i : Interface) (peers : List Peer) :
    ((∀ line ∈ headLines i, line.Faithful) ∧ ∀ line ∈ allPeerLines i.type peers, line.Single) ↔
      CleanInterface i ∧ ∀ p ∈ peers, p.isDisabled = false → CleanPeer i.type p := by
  have blank : Line.blank.Single := rfl
  refine and_congr (faithful_headLines_iff i) ?_
  rw [allPeerLines, List.forall_mem_append, List.forall_mem_singleton, and_iff_left blank,
    List.forall_mem_flatMap]
  exact forall₂_congr fun p _ => single_peerLines_iff i.type p

theorem toList_getInterfaceConfig (i : Interface) (peers : List Peer) :
    (getInterfaceConfig i peers).toList = render (headLines i ++ allPeerLines i.type peers) := by
  rw [getInterfaceConfig, String.toList_ofList, fileLines_eq]

theorem InjectionFree.clean {i : Interface} {peers : List Peer} (free : InjectionFree i peers) :
    CleanInterface i ∧ ∀ p ∈ peers, p.isDisabled = false → CleanPeer i.type p := by
  obtain ⟨sections, read, same⟩ := free
  have items := congrArg File.items read
  rw [File.read, File.items_ofItems, toList_getInterfaceConfig] at items
  refine (faithful_lines_iff i peers).mp ((parse_render_append_iff (proper_fileLines i peers)).mp
    ⟨sections.flatMap Section.items, ?_, length_sections same⟩)
  rw [items, itemsOf_headLines]
  rfl

def serverInterface : Interface := { Interface.zero with identifier := "wg0", type := .server }

/-- A prepared peer, to which a user gave a name of several lines. -/
def namedPeer : Peer :=
  overwriteUserEditableFields
    { Peer.zero with identifier := "key", interfaceIdentifier := "wg0" }
    { Peer.zero with identifier := "key", displayName := "x\n[Interface]\nPostUp = touch /tmp/x" }
    defaultConfig

end WgPortal.ConfigFile
