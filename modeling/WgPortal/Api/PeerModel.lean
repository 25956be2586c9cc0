import Mathlib.Data.List.DropRight
import WgPortal.Library.Calendar
import WgPortal.WireGuard.Peers

/-! The peers of the API in its versions 0 and 1, which differ in how they
represent the time of expiry, and the conversions between them and the domain. -/

namespace WgPortal.Api

open Domain Library Calendar

/-- `strings.Trim` -/
def trim (cutset : Char → Bool) (text : List Char) : List Char :=
  ((text.dropWhile cutset).reverse.dropWhile cutset).reverse

/-- `internal.SliceString`: the entries between commas, without the blank ones. -/
def sliceString (str : String) : List String :=
  (((str.toList.splitOn ',').map trimSpace).filter (· ≠ [])).map String.ofList

/-- `internal.SliceToString` -/
def sliceToString (slice : List String) : String :=
  String.ofList (NetIP.join ',' (slice.map String.toList))

def stringSliceConfigOptionFromDomain (opt : ConfigOption String) : ConfigOption (List String) :=
  ⟨sliceString opt.value, opt.overridable⟩

def stringSliceConfigOptionToDomain (opt : ConfigOption (List String)) : ConfigOption String :=
  ⟨sliceToString opt.value, opt.overridable⟩

def cidrsToStringSlice (slice : List Cidr) : List String := slice.map (String.ofList ·.text)

/-- No prefixes at all if one is malformed -/
def cidrsFromArray (strs : List String) : List Cidr := (strs.mapM cidrFromString).getD []

/-- `strings.ReplaceAll(text, part, "")` for a part that is not empty; `skip`
characters of an occurrence are still to be dropped. -/
def removeAll (part : List Char) : ℕ → List Char → List Char
  | _, [] => []
  | skip + 1, _ :: text => removeAll part skip text
  | 0, c :: text =>
    if part.isPrefixOf (c :: text) then removeAll part (part.length - 1) text
    else c :: removeAll part 0 text

/-- The characters that `allowedFileNameRegex` keeps -/
def allowedInFileName (c : Char) : Bool :=
  ('a' ≤ c && c ≤ 'z') || ('A' ≤ c && c ≤ 'Z') || ('0' ≤ c && c ≤ '9') || c = '-' || c = '_'

def getConfigFileName (p : Peer) : String :=
  if p.displayName ≠ "" then
    let filename := p.displayName.toList.map fun c => if c = ' ' then '_' else c
    let filename := removeAll "Autodetected_".toList 0 filename
    WireGuard.truncateString (String.ofList (filename.filter allowedInFileName)) 16 ++ ".conf"
  else
    let filename := "wg_" ++ WireGuard.truncateString p.identifier 8
    String.ofList (filename.toList.filter allowedInFileName) ++ ".conf"

inductive Version where
  | v0
  | v1
deriving DecidableEq

/-- The type of `ExpiresAt` -/
abbrev Version.Expiry : Version → Type
  | v0 => Option Time
  | v1 => String

structure Peer (v : Version) where
  identifier : String
  displayName : String
  userIdentifier : String
  interfaceIdentifier : String
  disabled : Bool
  disabledReason : String
  expiresAt : v.Expiry
  notes : String
  endpoint : ConfigOption String
  endpointPublicKey : ConfigOption String
  allowedIPs : ConfigOption (List String)
  extraAllowedIPs : List String
  presharedKey : String
  persistentKeepalive : ConfigOption Int
  privateKey : String
  publicKey : String
  mode : InterfaceType
  addresses : List String
  checkAliveAddress : String
  dns : ConfigOption (List String)
  dnsSearch : ConfigOption (List String)
  mtu : ConfigOption Int
  firewallMark : ConfigOption ℕ
  routingTable : ConfigOption String
  preUp : ConfigOption String
  postUp : ConfigOption String
  preDown : ConfigOption String
  postDown : ConfigOption String
  filename : String

/-- The time of expiry as `NewPeer` shows it. -/
def expiryFromDomain : (v : Version) → Option Time → v.Expiry
  | .v0, expiresAt => expiresAt
  | .v1, none => ""
  | .v1, some t => if t.isZero then "" else String.ofList (formatRFC3339 t)

def isQuote (c : Char) : Bool := c = '"' || c = '\''

/-- The time of expiry as `NewDomainPeer` reads it. -/
def expiryToDomain : (v : Version) → v.Expiry → Option Time
  | .v0, expiresAt => expiresAt
  | .v1, expiresAt =>
    if expiresAt = "" then none
    else
      let timeStr := trim isQuote (trimSpace expiresAt.toList)
      (parseRFC3339 timeStr).or (parseLayout zoneZ timeStr)

def newPeer (v : Version) (src : Domain.Peer) : Peer v where
  identifier := src.identifier
  displayName := src.displayName
  userIdentifier := src.userIdentifier
  interfaceIdentifier := src.interfaceIdentifier
  disabled := src.isDisabled
  disabledReason := src.disabledReason
  expiresAt := expiryFromDomain v src.expiresAt
  notes := src.notes
  endpoint := src.endpoint
  endpointPublicKey := src.endpointPublicKey
  allowedIPs := stringSliceConfigOptionFromDomain src.allowedIPsStr
  extraAllowedIPs := sliceString src.extraAllowedIPsStr
  presharedKey := src.presharedKey
  persistentKeepalive := src.persistentKeepalive
  privateKey := src.interface.keyPair.privateKey
  publicKey := src.interface.keyPair.publicKey
  mode := src.interface.type
  addresses := cidrsToStringSlice src.interface.addresses
  checkAliveAddress := src.interface.checkAliveAddress
  dns := stringSliceConfigOptionFromDomain src.interface.dnsStr
  dnsSearch := stringSliceConfigOptionFromDomain src.interface.dnsSearchStr
  mtu := src.interface.mtu
  firewallMark := src.interface.firewallMark
  routingTable := src.interface.routingTable
  preUp := src.interface.preUp
  postUp := src.interface.postUp
  preDown := src.interface.preDown
  postDown := src.interface.postDown
  filename := getConfigFileName src

def newDomainPeer {v : Version} (now : Time) (src : Peer v) : Domain.Peer where
  base := Domain.Peer.zero.base
  endpoint := src.endpoint
  endpointPublicKey := src.endpointPublicKey
  allowedIPsStr := stringSliceConfigOptionToDomain src.allowedIPs
  extraAllowedIPsStr := sliceToString src.extraAllowedIPs
  presharedKey := src.presharedKey
  persistentKeepalive := src.persistentKeepalive
  displayName := src.displayName
  identifier := src.identifier
  userIdentifier := src.userIdentifier
  interfaceIdentifier := src.interfaceIdentifier
  disabled := if src.disabled then some now else none
  disabledReason := src.disabledReason
  expiresAt := expiryToDomain v src.expiresAt
  notes := src.notes
  -- neither is part of the model of the API
  ttlLocked := false
  automaticallyCreated := false
  interface :=
    { keyPair := ⟨src.privateKey, src.publicKey⟩
      type := src.mode
      addresses := cidrsFromArray src.addresses
      checkAliveAddress := src.checkAliveAddress
      dnsStr := stringSliceConfigOptionToDomain src.dns
      dnsSearchStr := stringSliceConfigOptionToDomain src.dnsSearch
      mtu := src.mtu
      firewallMark := src.firewallMark
      routingTable := src.routingTable
      preUp := src.preUp
      postUp := src.postUp
      preDown := src.preDown
      postDown := src.postDown }

theorem dropWhile_eq_self {cut : Char → Bool} {text : List Char} (kept : ∀ c ∈ text, cut c = false) :
    text.dropWhile cut = text := by
  cases text with
  | nil => rfl
  | cons c text => simp [kept c List.mem_cons_self]

theorem trim_eq_self {cut : Char → Bool} {text : List Char} (kept : ∀ c ∈ text, cut c = false) :
    trim cut text = text := by
  have kept' : ∀ c ∈ text.reverse, cut c = false := fun c mem => kept c (List.mem_reverse.mp mem)
  rw [trim, dropWhile_eq_self kept, dropWhile_eq_self kept', List.reverse_reverse]

theorem trimSpace_eq_trim (text : List Char) : trimSpace text = trim isSpace text := rfl

/-- What is left of an expiry that is shown and read back. -/
theorem expiryToDomain_expiryFromDomain (v : Version) (expiresAt : Option Time) :
    expiryToDomain v (expiryFromDomain v expiresAt) = match v with
      | .v0 => expiresAt
      | .v1 => expiresAt.bind fun t =>
        if t ≠ 0 ∧ FourDigits t then some (wholeSeconds t) else none := by
  cases v with
  | v0 => rfl
  | v1 =>
    cases expiresAt with
    | none => rfl
    | some t =>
      by_cases zero : t = 0
      · simp [expiryFromDomain, expiryToDomain, Time.isZero, zero]
      · have kept : ∀ c ∈ formatRFC3339 t, isSpace c = false ∧ isQuote c = false := by
          have each : ∀ c ∈ textChars, isSpace c = false ∧ isQuote c = false :=
            List.all_iff_forall_prop.mp (by decide)
          exact fun c mem => each c (mem_formatRFC3339 mem)
        have text : trim isQuote (trimSpace (formatRFC3339 t)) = formatRFC3339 t := by
          rw [trimSpace_eq_trim, trim_eq_self fun c mem => (kept c mem).1,
            trim_eq_self fun c mem => (kept c mem).2]
        have notEmpty : String.ofList (formatRFC3339 t) ≠ "" := by
          intro empty
          have none := congrArg String.toList empty
          simp [formatRFC3339] at none
        have shown : expiryFromDomain .v1 (some t) = String.ofList (formatRFC3339 t) := by
          simp [expiryFromDomain, Time.isZero, zero]
        have numeric : zone ['Z'] = some 0 := by decide
        have letter : zoneZ ['Z'] = some 0 := by decide
        simp only [shown, expiryToDomain, if_neg notEmpty, String.toList_ofList, text, parseRFC3339,
          parseLayout_format numeric, parseLayout_format letter]
        by_cases year : FourDigits t <;> simp [year, zero]

theorem trim_trim (cut : Char → Bool) (text : List Char) :
    trim cut (trim cut text) = trim cut text := by
  have eq : trim cut text = (text.dropWhile cut).rdropWhile cut := rfl
  have front : (trim cut text).dropWhile cut = trim cut text := by
    rw [eq, List.dropWhile_eq_self_iff]
    intro nonempty
    have start := List.rdropWhile_prefix cut (text.dropWhile cut)
    have long : 0 < (text.dropWhile cut).length := nonempty.trans_le start.length_le
    rw [start.getElem nonempty]
    exact List.dropWhile_eq_self_iff.mp (List.dropWhile_idempotent cut text) long
  rw [trim, front, eq]
  exact List.rdropWhile_idempotent cut _

theorem mem_of_mem_trim {cut : Char → Bool} {text : List Char} {c : Char} (mem : c ∈ trim cut text) :
    c ∈ text :=
  (List.dropWhile_sublist cut).mem ((List.rdropWhile_prefix cut _).mem mem)

theorem mapM_congr {α β : Type} {f g : α → Option β} {list : List α}
    (same : ∀ a ∈ list, f a = g a) : list.mapM f = list.mapM g := by
  induction list with
  | nil => rfl
  | cons a list ih =>
    rw [List.mapM_cons, List.mapM_cons, same a List.mem_cons_self,
      ih fun b mem => same b (List.mem_cons_of_mem a mem)]

/-- The prefixes of a text whose blank entries do not count. -/
def listedCidrs (str : String) : List Cidr :=
  ((((str.toList.splitOn ',').map trimSpace).filter (· ≠ [])).mapM NetIP.parsePrefix).getD []

/-- The entries of a text that are not blank. -/
def entries (str : String) : List (List Char) :=
  ((str.toList.splitOn ',').map trimSpace).filter (· ≠ [])

theorem toList_sliceString (str : String) : (sliceString str).map String.toList = entries str := by
  rw [sliceString, List.map_map]
  exact List.map_id'' (fun _ => String.toList_ofList) _

theorem plain_of_mem_entries {str : String} {part : List Char} (mem : part ∈ entries str) :
    ',' ∉ part ∧ trimSpace part = part ∧ part ≠ [] := by
  obtain ⟨listed, nonempty⟩ := List.mem_filter.mp mem
  obtain ⟨raw, rawMem, rfl⟩ := List.mem_map.mp listed
  refine ⟨fun comma => NetIP.not_mem_of_mem_splitOn rawMem (mem_of_mem_trim comma), trim_trim _ _, ?_⟩
  exact of_decide_eq_true nonempty

/-- The prefixes of a text that went through the list of the API. -/
theorem cidrsOrNil_sliceToString (str : String) :
    cidrsOrNil (sliceToString (sliceString str)) = listedCidrs str := by
  have parsed : (entries str).mapM (fun part => cidrFromString (String.ofList part)) =
      (entries str).mapM NetIP.parsePrefix := by
    refine mapM_congr fun part mem => ?_
    rw [cidrFromString, String.toList_ofList, (plain_of_mem_entries mem).2.1]
  by_cases none : entries str = []
  · have blank : listedCidrs str = [] := by
      change ((entries str).mapM NetIP.parsePrefix).getD [] = []
      rw [none]
      rfl
    rw [sliceToString, toList_sliceString, none, blank]
    rfl
  · have parts := NetIP.splitOn_join (fun part mem => (plain_of_mem_entries mem).1) none
    rw [cidrsOrNil, cidrsFromString, sliceToString, toList_sliceString, String.toList_ofList, parts,
      parsed]
    rfl

/-- A list that was written as a text is read as it was. -/
theorem sliceString_sliceToString (str : String) :
    sliceString (sliceToString (sliceString str)) = sliceString str := by
  by_cases none : entries str = []
  · have blank : sliceString str = [] := by
      rw [sliceString]
      exact List.map_eq_nil_iff.mpr none
    rw [blank]
    decide
  · have parts := NetIP.splitOn_join (fun part mem => (plain_of_mem_entries mem).1) none
    have trimmed : (entries str).map trimSpace = entries str :=
      (List.map_congr_left fun part mem => (plain_of_mem_entries mem).2.1).trans (List.map_id _)
    have kept : (entries str).filter (· ≠ []) = entries str :=
      List.filter_eq_self.mpr fun part mem => decide_eq_true (plain_of_mem_entries mem).2.2
    rw [sliceToString, toList_sliceString, sliceString, String.toList_ofList, parts, trimmed, kept]
    rfl

theorem cidrsFromArray_cidrsToStringSlice (cidrs : List Cidr) :
    cidrsFromArray (cidrsToStringSlice cidrs) = cidrs := by
  have parsed : (cidrs.map fun c => String.ofList c.text).mapM cidrFromString = some cidrs := by
    induction cidrs with
    | nil => rfl
    | cons c cidrs ih =>
      simp [List.mapM_cons, cidrFromString_text, ih]
  rw [cidrsFromArray, cidrsToStringSlice, parsed, Option.getD_some]

end WgPortal.Api
