import WgPortal.Adapters.Database
import WgPortal.ConfigFile.PeerFile
import WgPortal.Library.CommentLines

/-! The configuration of a peer as its owner gets it, as a file or in a QR code. -/

namespace WgPortal.ConfigFile

open Adapters Domain Library.SectionFile

/-- `unicode.IsSpace` -/
def isSpace (c : Char) : Bool :=
  isBlank c || ('\u2000' ≤ c && c ≤ '\u200a') ||
    c ∈ ['\u0085', '\u00a0', '\u1680', '\u2028', '\u2029', '\u202f', '\u205f', '\u3000']

/-- `strings.TrimSpace` -/
def trimSpace (text : List Char) : List Char :=
  ((text.dropWhile isSpace).reverse.dropWhile isSpace).reverse

/-- A carriage return at the end of a line -/
def dropCR (line : List Char) : List Char :=
  if line.getLast? = some '\r' then line.dropLast else line

/-- `bufio.MaxScanTokenSize` -/
def maxScanTokenSize : ℕ := 64 * 1024

def TooLong (line : List Char) : Prop := maxScanTokenSize ≤ (String.ofList line).utf8ByteSize

instance (line : List Char) : Decidable (TooLong line) := inferInstanceAs (Decidable (_ ≤ _))

/-- The lines of a text, without the empty one behind the last line break -/
def rawLines (text : List Char) : List (List Char) :=
  let lines := text.splitOn '\n'
  if lines.getLast? = some [] then lines.dropLast else lines

/-- What a scanner reads line by line -/
def scanLines (text : List Char) : Except Error (List (List Char)) :=
  if ∃ line ∈ rawLines text, TooLong line then .error (.other "bufio.Scanner: token too long")
  else .ok ((rawLines text).map dropCR)

/-- The lines that are no comments -/
def withoutComments (lines : List (List Char)) : List Char :=
  ((lines.map trimSpace).filter fun line => line.head? ≠ some '#').flatMap (· ++ ['\n'])

section Manager

variable (ui : ContextUserInfo) (db : Db) (id : PeerIdentifier) (style : String)

/-- The peer, if the user may see it -/
def ownPeer : Except Error Peer :=
  match db.getPeer id with
  | .error err => .error (.wrap ("failed to fetch peer " ++ id) err)
  | .ok peer =>
    match validateUserAccessRights ui peer.userIdentifier with
    | .error err => .error err
    | .ok () => .ok peer

/-- `Manager.GetPeerConfig` -/
def managerGetPeerConfig : Except Error String :=
  (ownPeer ui db id).map (getPeerConfig style)

/-- `Manager.GetPeerConfigQrCode`, up to the text that is encoded -/
def managerGetPeerConfigQrCode : Except Error String :=
  match ownPeer ui db id with
  | .error err => .error err
  | .ok peer =>
    match scanLines (getPeerConfig style peer).toList with
    | .error err => .error (.wrap ("failed to read peer config for " ++ id) err)
    | .ok lines => .ok (String.ofList (withoutComments lines))

end Manager

section Lines

theorem parseLine_dropCR (line : List Char) : parseLine (dropCR line) = parseLine line := by
  unfold dropCR
  split
  · rename_i last
    have whole : line.dropLast ++ ['\r'] = line := List.dropLast_append_getLast? '\r' last
    rw [← parseLine_append_blank (c := '\r') (by decide), whole]
  · rfl

/-- Text whose blanks are the ones that a reader of files knows -/
def PlainBlanks (text : List Char) : Prop := ∀ c ∈ text, isSpace c = true → isBlank c = true

theorem isSpace_eq {text : List Char} (plain : PlainBlanks text) :
    ∀ c ∈ text, isSpace c = isBlank c := by
  intro c mem
  cases blank : isBlank c with
  | true =>
    unfold isSpace
    rw [blank]
    rfl
  | false =>
    cases space : isSpace c with
    | false => rfl
    | true => exact (plain c mem space).symm.trans blank

theorem dropWhile_congr {p q : Char → Bool} {text : List Char} (same : ∀ c ∈ text, p c = q c) :
    text.dropWhile p = text.dropWhile q := by
  induction text with
  | nil => rfl
  | cons c text ih =>
    rw [List.forall_mem_cons] at same
    rw [List.dropWhile_cons, List.dropWhile_cons, same.1, ih same.2]

theorem trimSpace_eq {text : List Char} (plain : PlainBlanks text) :
    trimSpace text = trim text := by
  have same := isSpace_eq plain
  have inner : ∀ c ∈ (text.dropWhile isBlank).reverse, isSpace c = isBlank c := by
    intro c mem
    exact same c ((List.dropWhile_suffix _).subset (List.mem_reverse.mp mem))
  rw [trimSpace, dropWhile_congr same, dropWhile_congr inner, trim]

theorem filterMap_rawLines (text : List Char) :
    (rawLines text).filterMap parseLine = parse text := by
  unfold rawLines parse
  dsimp only
  split
  · rename_i last
    have whole := List.dropLast_append_getLast? [] last
    have silent : [([] : List Char)].filterMap parseLine = [] := rfl
    conv_rhs => rw [← whole]
    rw [List.filterMap_append, silent, List.append_nil]
  · rfl

theorem mem_rawLines {text line : List Char} (mem : line ∈ rawLines text) :
    line ∈ text.splitOn '\n' := by
  unfold rawLines at mem
  dsimp only at mem
  split at mem
  · exact List.dropLast_subset _ mem
  · exact mem

theorem dropCR_sublist (line : List Char) : (dropCR line).Sublist line := by
  unfold dropCR
  split
  · exact List.dropLast_sublist line
  · exact List.Sublist.refl line

theorem mem_intercalate {sep part : List Char} {parts : List (List Char)} {c : Char}
    (mem : part ∈ parts) (inside : c ∈ part) : c ∈ sep.intercalate parts := by
  induction parts with
  | nil => cases mem
  | cons first rest ih =>
    by_cases last : rest = []
    · subst last
      obtain rfl := List.mem_singleton.mp mem
      simpa using inside
    · rw [List.intercalate_cons_of_ne_nil last, List.mem_append]
      rcases List.mem_cons.mp mem with rfl | later
      · exact .inl (List.mem_append_left _ inside)
      · exact .inr (ih later)

/-- A line is a part of the text. -/
theorem mem_of_mem_rawLines {text line : List Char} {c : Char} (mem : line ∈ rawLines text)
    (inside : c ∈ line) : c ∈ text := by
  have joined : ['\n'].intercalate (text.splitOn '\n') = text := List.intercalate_splitOn '\n'
  rw [← joined]
  exact mem_intercalate (mem_rawLines mem) inside

theorem withoutComments_eq {lines : List (List Char)} (plain : ∀ line ∈ lines, PlainBlanks line) :
    withoutComments lines = (bareLines lines).flatMap (· ++ ['\n']) := by
  have same : lines.map trimSpace = lines.map trim :=
    List.map_congr_left fun line mem => trimSpace_eq (plain line mem)
  rw [withoutComments, same, bareLines]

theorem parse_withoutComments {text : List Char} {lines : List (List Char)}
    (plain : PlainBlanks text) (scanned : scanLines text = .ok lines) :
    parse (withoutComments lines) = parse text := by
  unfold scanLines at scanned
  split at scanned
  · cases scanned
  obtain rfl := Except.ok.inj scanned
  have inText : ∀ line ∈ (rawLines text).map dropCR, ∃ raw ∈ rawLines text, line.Sublist raw := by
    intro line mem
    obtain ⟨raw, inside, rfl⟩ := List.mem_map.mp mem
    exact ⟨raw, inside, dropCR_sublist raw⟩
  rw [withoutComments_eq, parse_bareLines, List.filterMap_map, ← filterMap_rawLines]
  · exact List.filterMap_congr fun line _ => parseLine_dropCR line
  · intro line mem broken
    obtain ⟨raw, inside, part⟩ := inText line mem
    exact Library.NetIP.not_mem_of_mem_splitOn (mem_rawLines inside) (part.subset broken)
  · intro line mem c inLine
    obtain ⟨raw, inside, part⟩ := inText line mem
    exact plain c (mem_of_mem_rawLines inside (part.subset inLine))

/-- No line that is left begins with a comment mark. -/
theorem head?_withoutComments {lines : List (List Char)} (oneLine : ∀ line ∈ lines, '\n' ∉ line) :
    ∀ line ∈ (withoutComments lines).splitOn '\n', line.head? ≠ some '#' := by
  have within : ∀ text, (trimSpace text).Sublist text := by
    intro text
    have last := (List.dropWhile_sublist isSpace (l := (text.dropWhile isSpace).reverse)).reverse
    rw [List.reverse_reverse] at last
    exact last.trans (List.dropWhile_sublist isSpace)
  have split : ∀ kept : List (List Char), (∀ line ∈ kept, '\n' ∉ line) →
      (kept.flatMap (· ++ ['\n'])).splitOn '\n' = kept ++ [[]] := by
    intro kept oneLine
    induction kept with
    | nil => rfl
    | cons first rest ih =>
      rw [List.forall_mem_cons] at oneLine
      rw [List.flatMap_cons, List.append_assoc, List.singleton_append,
        List.splitOn_append_cons_self, List.splitOn_eq_singleton oneLine.1, ih oneLine.2]
      rfl
  intro line mem
  unfold withoutComments at mem
  rw [split, List.mem_append, List.mem_singleton, List.mem_filter] at mem
  · rcases mem with ⟨-, kept⟩ | rfl
    · exact of_decide_eq_true kept
    · simp
  · intro kept inside broken
    obtain ⟨raw, listed, rfl⟩ := List.mem_map.mp (List.mem_filter.mp inside).1
    exact oneLine raw listed ((within raw).subset broken)

end Lines

/-- The user may have the configuration of the peer. -/
def MayHave (ui : ContextUserInfo) (peer : Peer) : Prop :=
  ui.isAdmin = true ∨ ui.id = peer.userIdentifier

theorem ownPeer_eq_ok {ui : ContextUserInfo} {db : Db} {id : PeerIdentifier} {peer : Peer} :
    ownPeer ui db id = .ok peer ↔ db.getPeer id = .ok peer ∧ MayHave ui peer := by
  unfold ownPeer
  cases found : db.getPeer id with
  | error err => simp
  | ok stored =>
    by_cases admin : ui.isAdmin = true
    · simp +contextual [validateUserAccessRights, admin, MayHave]
    by_cases own : ui.id = stored.userIdentifier
    · simp only [validateUserAccessRights, admin, own, if_true, Bool.false_eq_true, if_false,
        Except.ok.injEq]
      exact ⟨fun same => ⟨same, .inr (own.trans (congrArg Peer.userIdentifier same))⟩, And.left⟩
    · simp only [validateUserAccessRights, admin, own, Bool.false_eq_true, if_false, reduceCtorEq,
        Except.ok.injEq, false_iff, not_and]
      rintro rfl
      exact not_or.mpr ⟨admin, own⟩

/-- The code of a peer: who gets it, and what it says. Its comments, with the name of the peer, are
gone. -/
structure FaithfulCode (ui : ContextUserInfo) (db : Db) (id : PeerIdentifier) (style : String) :
    Prop where
  made : (∃ text, managerGetPeerConfigQrCode ui db id style = .ok text) ↔
    ∃ peer, db.getPeer id = .ok peer ∧ MayHave ui peer ∧
      ∀ line ∈ rawLines (getPeerConfig style peer).toList, ¬ TooLong line
  same : ∀ text, managerGetPeerConfigQrCode ui db id style = .ok text →
    ∃ file, managerGetPeerConfig ui db id style = .ok file ∧
      (PlainBlanks file.toList → File.read text.toList = File.read file.toList)
  bare : ∀ text, managerGetPeerConfigQrCode ui db id style = .ok text →
    ∀ line ∈ text.toList.splitOn '\n', line.head? ≠ some '#'

theorem managerGetPeerConfigQrCode_eq_ok {ui : ContextUserInfo} {db : Db} {id : PeerIdentifier}
    {style text : String} : managerGetPeerConfigQrCode ui db id style = .ok text ↔
      ∃ peer lines, ownPeer ui db id = .ok peer ∧
        scanLines (getPeerConfig style peer).toList = .ok lines ∧
        text = String.ofList (withoutComments lines) := by
  unfold managerGetPeerConfigQrCode
  cases ownPeer ui db id with
  | error err => simp
  | ok peer =>
    cases scanned : scanLines (getPeerConfig style peer).toList with
    | error err => simp [scanned]
    | ok lines => simp [scanned, eq_comm]

end WgPortal.ConfigFile
