import Mathlib.Data.List.Sort
import Mathlib.Data.List.TakeWhile
import Mathlib.Data.Nat.Notation

/-! URLs as `net/url` reads and writes them. The texts are sequences of bytes. -/

namespace WgPortal.Library.NetURL

/-- The bytes of a text in ASCII. -/
def ascii (text : String) : List UInt8 := text.toList.map Char.toUInt8

section Bytes

def isLower (c : UInt8) : Bool := 'a'.toUInt8 ≤ c && c ≤ 'z'.toUInt8

def isUpper (c : UInt8) : Bool := 'A'.toUInt8 ≤ c && c ≤ 'Z'.toUInt8

def isLetter (c : UInt8) : Bool := isLower c || isUpper c

def isDigit (c : UInt8) : Bool := '0'.toUInt8 ≤ c && c ≤ '9'.toUInt8

def isAlphanumeric (c : UInt8) : Bool := isLetter c || isDigit c

/-- `stringContainsCTLByte`, for one byte -/
def isControl (c : UInt8) : Bool := c < 0x20 || c = 0x7f

def lower (c : UInt8) : UInt8 := if isUpper c then c + 0x20 else c

def unhex (c : UInt8) : Option ℕ :=
  if isDigit c then some (c.toNat - '0'.toNat)
  else if 'a'.toUInt8 ≤ c ∧ c ≤ 'f'.toUInt8 then some (c.toNat - 'a'.toNat + 10)
  else if 'A'.toUInt8 ≤ c ∧ c ≤ 'F'.toUInt8 then some (c.toNat - 'A'.toNat + 10)
  else none

def upperHex (n : ℕ) : UInt8 := (ascii "0123456789ABCDEF").getD n 0

def lowerHex (n : ℕ) : UInt8 := (ascii "0123456789abcdef").getD n 0

end Bytes

section Texts

/-- The two parts of `strings.Cut`. -/
def before (c : UInt8) (text : List UInt8) : List UInt8 := text.takeWhile (· ≠ c)

def after (c : UInt8) (text : List UInt8) : List UInt8 := (text.dropWhile (· ≠ c)).drop 1

/-- The text in front of the last `c`; without one it is empty. -/
def beforeLast (c : UInt8) (text : List UInt8) : List UInt8 := (after c text.reverse).reverse

/-- The text behind the last `c`; without one it is the whole text. -/
def afterLast (c : UInt8) (text : List UInt8) : List UInt8 := (before c text.reverse).reverse

/-- The text up to the first place where `sub` starts, and the rest. -/
def breakAt (sub : List UInt8) : List UInt8 → Option (List UInt8 × List UInt8)
  | [] => if sub = [] then some ([], []) else none
  | c :: text =>
    if sub <+: c :: text then some ([], c :: text)
    else (breakAt sub text).map fun parts => (c :: parts.1, parts.2)

end Texts

/-- The parts of a URL, by what they have to escape. -/
inductive Encoding where
  | path
  | userPassword
  | queryComponent
  | fragment
  | host
  | zone
deriving DecidableEq

def shouldEscape (mode : Encoding) (c : UInt8) : Bool :=
  if isAlphanumeric c then false
  else if (mode = .host || mode = .zone) && c ∈ ascii "!$&'()*+,;=:[]<>\"" then false
  else if c ∈ ascii "-_.~" then false
  else if c ∈ ascii "$&+,/:;=?@" then
    match mode with
    | .path => c = '?'.toUInt8
    | .userPassword => c ∈ ascii "@/?:"
    | .queryComponent => true
    | .fragment => false
    | .host | .zone => true
  else if mode = .fragment && c ∈ ascii "!()*" then false
  else true

/-- Whether `%` and the two digits, which stand for `c`, must not be in a text. -/
def refuses (mode : Encoding) (c : UInt8) : Bool :=
  match mode with
  | .host => c < 0x80 && c ≠ '%'.toUInt8
  | .zone => c ≠ '%'.toUInt8 && c ≠ ' '.toUInt8 && shouldEscape .host c
  | _ => false

/-- The byte that two hexadecimal digits stand for. -/
def hexByte (high low : UInt8) : Option UInt8 := do
  let high ← unhex high
  let low ← unhex low
  return UInt8.ofNat (16 * high + low)

def unescape (mode : Encoding) : List UInt8 → Option (List UInt8)
  | [] => some []
  | c :: rest =>
    if c = '%'.toUInt8 then
      match rest with
      | high :: low :: rest =>
        match hexByte high low with
        | some byte =>
          if refuses mode byte then none else (unescape mode rest).map (byte :: ·)
        | none => none
      | _ => none
    else if c = '+'.toUInt8 && mode = .queryComponent then
      (unescape mode rest).map (' '.toUInt8 :: ·)
    else if (mode = .host || mode = .zone) && c < 0x80 && shouldEscape mode c then none
    else (unescape mode rest).map (c :: ·)

/-- `%` and two digits -/
def percent (digit : ℕ → UInt8) (c : UInt8) : List UInt8 :=
  ['%'.toUInt8, digit (c.toNat / 16), digit (c.toNat % 16)]

def escapeByte (mode : Encoding) (c : UInt8) : List UInt8 :=
  if !shouldEscape mode c then [c]
  else if c = ' '.toUInt8 && mode = .queryComponent then ['+'.toUInt8]
  else percent upperHex c

def escape (mode : Encoding) (text : List UInt8) : List UInt8 := text.flatMap (escapeByte mode)

def validEncoded (mode : Encoding) (text : List UInt8) : Bool :=
  text.all fun c => c ∈ ascii "!$&'()*+,;=:@[]%" || !shouldEscape mode c

structure Userinfo where
  username : List UInt8
  password : Option (List UInt8)
deriving DecidableEq

structure URL where
  scheme : List UInt8 := []
  /-- `Opaque` -/
  opaquePart : List UInt8 := []
  user : Option Userinfo := none
  host : List UInt8 := []
  path : List UInt8 := []
  rawPath : List UInt8 := []
  omitHost : Bool := false
  forceQuery : Bool := false
  rawQuery : List UInt8 := []
  fragment : List UInt8 := []
  rawFragment : List UInt8 := []
deriving DecidableEq

section Parse

def isSchemeByte (c : UInt8) : Bool := isAlphanumeric c || c ∈ ascii "+-."

/-- The scheme, without its colon, and the rest; it fails where the scheme is missing. -/
def getScheme (rawURL : List UInt8) : Option (List UInt8 × List UInt8) :=
  match rawURL with
  | [] => some ([], [])
  | first :: _ =>
    if first = ':'.toUInt8 then none
    else if !isLetter first then some ([], rawURL)
    else
      match rawURL.dropWhile isSchemeByte with
      | [] => some ([], rawURL)
      | c :: rest =>
        if c = ':'.toUInt8 then some (rawURL.takeWhile isSchemeByte, rest)
        else some ([], rawURL)

def validOptionalPort (port : List UInt8) : Bool :=
  match port with
  | [] => true
  | c :: digits => c = ':'.toUInt8 && digits.all isDigit

def validUserinfo (text : List UInt8) : Bool :=
  text.all fun c => isAlphanumeric c || c ∈ ascii "-._:~!$&'()*+,;=%@"

def parseUserinfo (userinfo : List UInt8) : Option Userinfo := do
  if !validUserinfo userinfo then none
  else if ':'.toUInt8 ∉ userinfo then
    return ⟨← unescape .userPassword userinfo, none⟩
  else
    let username ← unescape .userPassword (before ':'.toUInt8 userinfo)
    let password ← unescape .userPassword (after ':'.toUInt8 userinfo)
    return ⟨username, some password⟩

def parseHost (host : List UInt8) : Option (List UInt8) :=
  if host.head? = some '['.toUInt8 then
    if ']'.toUInt8 ∉ host then none
    else if !validOptionalPort (afterLast ']'.toUInt8 host) then none
    else
      match breakAt (ascii "%25") (beforeLast ']'.toUInt8 host) with
      | some (address, zone) => do
        let host1 ← unescape .host address
        let host2 ← unescape .zone zone
        let host3 ← unescape .host (']'.toUInt8 :: afterLast ']'.toUInt8 host)
        return host1 ++ host2 ++ host3
      | none => unescape .host host
  else if ':'.toUInt8 ∈ host && !(afterLast ':'.toUInt8 host).all isDigit then none
  else unescape .host host

def parseAuthority (authority : List UInt8) : Option (Option Userinfo × List UInt8) := do
  if '@'.toUInt8 ∉ authority then
    return (none, ← parseHost authority)
  else
    let host ← parseHost (afterLast '@'.toUInt8 authority)
    let user ← parseUserinfo (beforeLast '@'.toUInt8 authority)
    return (some user, host)

def URL.setPath (u : URL) (p : List UInt8) : Option URL := do
  let path ← unescape .path p
  return { u with path := path, rawPath := if escape .path path = p then [] else p }

def URL.setFragment (u : URL) (f : List UInt8) : Option URL := do
  let fragment ← unescape .fragment f
  let rawFragment := if escape .fragment fragment = f then [] else f
  return { u with fragment := fragment, rawFragment := rawFragment }

/-- The rest up to the query, whether an empty query is to be kept, and the query. -/
def cutQuery (rest : List UInt8) : List UInt8 × Bool × List UInt8 :=
  if rest.getLast? = some '?'.toUInt8 && rest.count '?'.toUInt8 = 1 then (rest.dropLast, true, [])
  else (before '?'.toUInt8 rest, false, after '?'.toUInt8 rest)

/-- What comes behind the scheme and in front of the query. -/
def URL.setHierarchy (u : URL) (rest : List UInt8) : Option URL :=
  if rest.head? ≠ some '/'.toUInt8 then
    if u.scheme ≠ [] then some { u with opaquePart := rest }
    -- the colon would be the one of a malformed scheme
    else if ':'.toUInt8 ∈ before '/'.toUInt8 rest then none
    else u.setPath rest
  else if ascii "//" <+: rest ∧ (u.scheme ≠ [] ∨ ¬ ascii "///" <+: rest) then do
    let (user, host) ← parseAuthority (before '/'.toUInt8 (rest.drop 2))
    { u with user := user, host := host }.setPath ((rest.drop 2).dropWhile (· ≠ '/'.toUInt8))
  else { u with omitHost := u.scheme ≠ [] }.setPath rest

/-- `parse`, of a text without a fragment -/
def parseReference (rawURL : List UInt8) : Option URL := do
  if rawURL.any isControl then none
  else if rawURL = ascii "*" then return { path := ascii "*" }
  else
    let (scheme, rest) ← getScheme rawURL
    let (rest, forceQuery, rawQuery) := cutQuery rest
    URL.setHierarchy { scheme := scheme.map lower, forceQuery, rawQuery } rest

def parse (rawURL : List UInt8) : Option URL := do
  let url ← parseReference (before '#'.toUInt8 rawURL)
  if after '#'.toUInt8 rawURL = [] then return url
  else url.setFragment (after '#'.toUInt8 rawURL)

end Parse

section Write

/-- Whether the text that was read can be written again for `text`. -/
def stillEncoded (mode : Encoding) (raw text : List UInt8) : Bool :=
  raw ≠ [] && validEncoded mode raw && unescape mode raw = some text

def URL.escapedPath (u : URL) : List UInt8 :=
  if stillEncoded .path u.rawPath u.path then u.rawPath
  else if u.path = ascii "*" then ascii "*"
  else escape .path u.path

def URL.escapedFragment (u : URL) : List UInt8 :=
  if stillEncoded .fragment u.rawFragment u.fragment then u.rawFragment
  else escape .fragment u.fragment

def Userinfo.text (user : Userinfo) : List UInt8 :=
  escape .userPassword user.username ++
    match user.password with
    | some password => ':'.toUInt8 :: escape .userPassword password
    | none => []

def URL.schemeText (u : URL) : List UInt8 :=
  if u.scheme ≠ [] then u.scheme ++ [':'.toUInt8] else []

def URL.userText (u : URL) : List UInt8 :=
  match u.user with
  | some user => user.text ++ ['@'.toUInt8]
  | none => []

def URL.authorityText (u : URL) : List UInt8 :=
  if u.scheme = [] ∧ u.host = [] ∧ u.user = none then []
  else if u.omitHost ∧ u.host = [] ∧ u.user = none then []
  else
    (if u.host ≠ [] ∨ u.path ≠ [] ∨ u.user ≠ none then ascii "//" else []) ++
      u.userText ++ escape .host u.host

def URL.pathText (u : URL) : List UInt8 :=
  let path := u.escapedPath
  if path ≠ [] ∧ path.head? ≠ some '/'.toUInt8 ∧ u.host ≠ [] then '/'.toUInt8 :: path
  else if u.schemeText ++ u.authorityText = [] ∧ ':'.toUInt8 ∈ before '/'.toUInt8 path then
    -- the segment would be taken for a scheme
    ascii "./" ++ path
  else path

def URL.queryText (u : URL) : List UInt8 :=
  if u.forceQuery ∨ u.rawQuery ≠ [] then '?'.toUInt8 :: u.rawQuery else []

def URL.fragmentText (u : URL) : List UInt8 :=
  if u.fragment ≠ [] then '#'.toUInt8 :: u.escapedFragment else []

/-- `URL.String` -/
def URL.string (u : URL) : List UInt8 :=
  u.schemeText ++
    (if u.opaquePart ≠ [] then u.opaquePart else u.authorityText ++ u.pathText) ++
    u.queryText ++ u.fragmentText

end Write

section Query

/-- The values of a query with their keys. -/
abbrev Values := List (List UInt8 × List UInt8)

/-- Parts that cannot be read are left out. -/
def parseQuery (query : List UInt8) : Values :=
  (query.splitOn '&'.toUInt8).filterMap fun part =>
    if ';'.toUInt8 ∈ part ∨ part = [] then none
    else do
      let key ← unescape .queryComponent (before '='.toUInt8 part)
      let value ← unescape .queryComponent (after '='.toUInt8 part)
      return (key, value)

def URL.query (u : URL) : Values := parseQuery u.rawQuery

def Values.set (v : Values) (key value : List UInt8) : Values :=
  v.filter (·.1 ≠ key) ++ [(key, value)]

/-- The values in the order of their keys. -/
def Values.encode (v : Values) : List UInt8 :=
  ['&'.toUInt8].intercalate <| (v.insertionSort fun a b => a.1 ≤ b.1).map fun (key, value) =>
    escape .queryComponent key ++ '='.toUInt8 :: escape .queryComponent value

end Query

end WgPortal.Library.NetURL
