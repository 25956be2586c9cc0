import WgPortal.App.FanoutStart
import WgPortal.Library.NetURL

/-! The base URLs of the nodes of a cluster: how they are written and which node they denote. -/

namespace WgPortal.App.Fanout

open Domain Library
open NetURL (ascii)
open NetIP (Addr parseAddr)

section Texts

def bytesOf (text : String) : List UInt8 := text.toUTF8.data.toList

/-- The text of the bytes, if they are one in UTF-8. -/
def textOf (bytes : List UInt8) : Option String := String.fromUTF8? bytes.toByteArray

variable (unicodeLower : Char → Char)

/-- `unicode.ToLower`; it is given for the characters that are not in ASCII. -/
def lowerChar (c : Char) : Char := if c.toNat < 128 then c.toLower else unicodeLower c

/-- The functions of the standard library that the fan-out uses. -/
def netURLs : URLs where
  parse text := do
    let u ← NetURL.parse (bytesOf text)
    return (← textOf u.scheme, ← textOf u.host)
  queryEscape text := (textOf (NetURL.escape .queryComponent (bytesOf text))).getD ""
  toLower text := String.ofList (text.toList.map (lowerChar unicodeLower))

end Texts

inductive Protocol where
  | http
  | https
deriving DecidableEq

def Protocol.text : Protocol → List Char
  | http => "http".toList
  | https => "https".toList

def Protocol.defaultPort : Protocol → ℕ
  | http => 80
  | https => 443

/-- A scheme in letters of either case -/
structure Scheme where
  text : List Char
  protocol : Protocol
  spelled : text.map Char.toLower = protocol.text

def isNameChar (c : Char) : Bool := c.isAlphanum || c ∈ "-._".toList

def isPathChar (c : Char) : Bool := c.isAlphanum || c ∈ "-._~!$&'()*+,;=:@/".toList

/-- An IPv4 address is a name that is written in a single way. The hexadecimal digits of an IPv6
address are of either case. -/
inductive Host where
  | name (text : List Char) (named : text ≠ []) (plain : ∀ c ∈ text, isNameChar c = true)
  | ipv6 (text : List Char) (address : Addr)
    (parsed : parseAddr (text.map Char.toLower) = some address) (v6 : address.family = .v6)

/-- The decimal digits behind the colon -/
structure Port where
  text : List Char
  given : text ≠ []
  digits : ∀ c ∈ text, c.isDigit = true

structure BaseURL where
  scheme : Option Scheme
  host : Host
  port : Option Port
  path : List Char
  rooted : path = [] ∨ path.head? = some '/'
  plain : ∀ c ∈ path, isPathChar c = true

def Host.text : Host → List Char
  | name text _ _ => text
  | ipv6 text _ _ _ => '[' :: text ++ [']']

def portText : Option Port → List Char
  | some port => ':' :: port.text
  | none => []

namespace BaseURL

variable (b : BaseURL)

def authority : List Char := b.host.text ++ portText b.port

def schemeText : List Char :=
  match b.scheme with
  | some scheme => scheme.text ++ "://".toList
  | none => []

def text : List Char := b.schemeText ++ b.authority ++ b.path

def string : String := String.ofList b.text

end BaseURL

/-- The host of a node: a name without regard to case, or an address. -/
inductive HostValue where
  | name (text : List Char)
  | address (address : Addr)
deriving DecidableEq

def Host.value : Host → HostValue
  | name text _ _ => .name (text.map Char.toLower)
  | ipv6 _ address _ _ => .address address

/-- Which node a base URL is for -/
@[ext] structure Node where
  protocol : Protocol
  host : HostValue
  port : ℕ
deriving DecidableEq

def Port.value (port : Port) : ℕ := port.text.foldl (fun n c => 10 * n + (c.toNat - '0'.toNat)) 0

namespace BaseURL

variable (b : BaseURL)

def protocol : Protocol :=
  match b.scheme with
  | some scheme => scheme.protocol
  | none => .http

/-- The host as it is written, in lower case -/
def hostname : List Char := b.host.text.map Char.toLower

/-- The node that a base URL denotes: without a scheme it is one of HTTP, and a port that is not
given is the one of the scheme. -/
def node : Node where
  protocol := b.protocol
  host := b.host.value
  port :=
    match b.port with
    | some port => port.value
    | none => b.protocol.defaultPort

end BaseURL

/-- The forms of base URLs, by what is read from them. -/
inductive Form where
  /-- with a scheme -/
  | full
  /-- a name and no more -/
  | bare
  /-- a name that can be a scheme, and a port -/
  | named
  /-- another host and a port, or an IPv6 address -/
  | refused
deriving DecidableEq

def canBeScheme (text : List Char) : Bool := text.head?.any Char.isAlpha && '_' ∉ text

namespace BaseURL

variable (b : BaseURL)

def form : Form :=
  match b.scheme, b.host, b.port with
  | some _, _, _ => .full
  | none, .name .., none => .bare
  | none, .name text _ _, some _ => if canBeScheme text then .named else .refused
  | none, .ipv6 .., _ => .refused

/-- The scheme and the host that are read, if the URL is. -/
def readAs : Option (List Char × List Char) :=
  match b.form with
  | .full => some (b.protocol.text, b.authority)
  | .bare => some ([], [])
  | .named => some (b.hostname, [])
  | .refused => none

end BaseURL

end WgPortal.App.Fanout
