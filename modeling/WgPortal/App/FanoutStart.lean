import WgPortal.App.EventBus
import WgPortal.App.Fanout
import WgPortal.Domain.Cidr
import WgPortal.WireGuard.Manager

/-! What the fan-out of a node subscribes to, and the requests that it sends for an event. -/

namespace WgPortal.App.Fanout

open Domain WireGuard

/-- `url.Parse`, as far as the scheme and the host of the URL are concerned, `url.QueryEscape`
and `strings.ToLower` -/
structure URLs where
  parse : String → Option (String × String)
  queryEscape : String → String
  toLower : String → String

/-- The settings of `fanout`, as far as they are about what is sent to which nodes. -/
structure Settings where
  peers : List String
  selfURL : String
  origin : String
  topics : List String

def syncTopics : List String := ["peer:created:sync", "peer:updated:sync", "peer:deleted:sync"]

/-- The name under which a configured topic is subscribed to, if it is. -/
def migrated (topic : String) : Option String :=
  if topic = "peer:created" then some "peer:created:sync"
  else if topic = "peer:updated" then some "peer:updated:sync"
  else if topic = "peer:deleted" then some "peer:deleted:sync"
  else if topic ∈ ["interface:created", "interface:updated", "interface:deleted"] then none
  else some topic

/-- The topics that `Start` subscribes to; the missing ones are added in the order of a map. -/
def subscribedTopics (order : MapOrder String) (topics : List String) : List String :=
  if topics.isEmpty then syncTopics
  else
    let newTopics := topics.foldl (fun newTopics topic =>
      match migrated topic with
      | some topic => if topic ∈ newTopics then newTopics else newTopics ++ [topic]
      | none => newTopics) []
    newTopics ++ (order.order syncTopics).filter (· ∉ newTopics)

def trimSlashes (base : String) : String :=
  String.ofList (base.toList.reverse.dropWhile (· = '/')).reverse

def trimmed (base : String) : String := String.ofList (trimSpace base.toList)

section Targets

variable (urls : URLs)

def normalizeHostPort (host scheme : String) : String :=
  let h := urls.toLower (trimmed host)
  if h = "" then ""
  else if ':' ∈ h.toList then h
  else if scheme = "https" then h ++ ":443" else h ++ ":80"

def schemeOf (scheme : String) : String :=
  if urls.toLower scheme = "" then "http" else urls.toLower scheme

def isSelf (targetBase selfBase : String) : Bool :=
  if selfBase = "" || targetBase = "" then false
  else
    match urls.parse (trimmed targetBase), urls.parse (trimmed selfBase) with
    | some (targetScheme, targetHost), some (selfScheme, selfHost) =>
      let ts := schemeOf urls targetScheme
      let ss := schemeOf urls selfScheme
      ts = ss && normalizeHostPort urls targetHost ts = normalizeHostPort urls selfHost ss
    | _, _ => trimSlashes targetBase = trimSlashes selfBase

/-- The configured nodes that an event is sent to. -/
def Settings.others (s : Settings) : List String :=
  (s.peers.map trimmed).filter fun base => base ≠ "" && !isSelf urls base s.selfURL

end Targets

/-- What a request of the fan-out says: its headers and the parameters of its URL. -/
structure SyncRequest where
  noEcho : String
  origin : String
  peerID : String
  event : String
deriving DecidableEq

def eventType (topic : String) : String :=
  if topic = "peer:updated:sync" then "updated"
  else if topic = "peer:deleted:sync" then "deleted"
  else "created"

/-- The identifier that the events for single peers carry. -/
def peerArgument : Event → PeerIdentifier
  | .peerCreatedSync id | .peerUpdatedSync id | .peerDeletedSync id | .peerSyncedLocal id => id
  | _ => ""

/-- The requests of `fireForPeerEvent`, each with the node it is for. -/
def Settings.requests (urls : URLs) (s : Settings) (event : Event) : List (String × SyncRequest) :=
  (s.others urls).map fun base =>
    (base, ⟨"1", s.origin, peerArgument event, eventType event.topic⟩)

def endpoint (urls : URLs) (base : String) (r : SyncRequest) : String :=
  trimSlashes base ++ "/api/v1/peer/sync?peer_id=" ++ urls.queryEscape r.peerID ++
    "&event=" ++ r.event

theorem noEcho_of_mem_requests {urls : URLs} {s : Settings} {event : Event}
    {request : String × SyncRequest} (listed : request ∈ s.requests urls event) :
    request.2.noEcho = "1" := by
  obtain ⟨base, _, rfl⟩ := List.mem_map.mp listed
  rfl

/-- A node gets as many of the requests as the settings list it. -/
theorem count_requests (urls : URLs) (s : Settings) (event : Event) (base : String) :
    (s.requests urls event).countP (·.1 = base) = (s.others urls).count base := by
  rw [Settings.requests, List.countP_map, List.count]
  exact List.countP_congr fun other _ => by simp

end WgPortal.App.Fanout
