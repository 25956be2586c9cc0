import WgPortal.WgController.Wgctrl

/-! A WireGuard device as a table, with keys and endpoints that are their own
texts. It behaves as documented, on texts that are canonical. -/

namespace WgPortal.WgController

open Domain Library NetIP

/-- Whether a character can be the last one before the padding: it carries four
bits of the key. -/
def isLastKeyChar (c : Char) : Bool := c ∈ "AEIMQUYcgkosw048".toList

def isKeyChar (c : Char) : Bool := c.isAlphanum || c = '+' || c = '/'

/-- The canonical base64 texts of 32 bytes. -/
def isKeyText (text : String) : Bool :=
  match text.toList.reverse with
  | padding :: last :: others =>
    padding = '=' && isLastKeyChar last && others.length = 42 && others.all isKeyChar
  | _ => false

/-- An IPv4 address and a port. -/
def isEndpointText (text : String) : Bool :=
  match text.toList.splitOn ':' with
  | [addr, port] => (parseIPv4 addr).isSome && (parseDecimal 65535 port).isSome
  | _ => false

def plainTypes : Wgtypes where
  Key := { text : String // isKeyText text }
  UDPAddr := { text : String // isEndpointText text }
  keyEq := inferInstance
  addrEq := inferInstance
  zeroKey := ⟨"AAAAAAAAAAAAAAAAAAAAAAAAAAAAAAAAAAAAAAAAAAA=", by decide⟩
  parseKey := fun text => if h : isKeyText text then some ⟨text, h⟩ else none
  keyText := Subtype.val
  parseKey_keyText := fun key => dif_pos key.property
  resolveUDPAddr := fun text => if h : isEndpointText text then some ⟨text, h⟩ else none
  addrText := Subtype.val
  resolveUDPAddr_addrText := fun addr => dif_pos addr.property
  addrText_ne_empty := by
    intro addr empty
    have endpoint := addr.property
    rw [empty] at endpoint
    exact absurd endpoint (by decide)

namespace PeerConfig

variable {w : Wgtypes} (c : PeerConfig w)

theorem released_publicKey (p : WgPeer w) : (c.released p).publicKey = p.publicKey := rfl

theorem configured_target_publicKey (d : Device w) :
    (c.configured (c.target d)).publicKey = c.publicKey := by
  simp only [configured, target]
  cases found : d.find c.publicKey with
  | none => rfl
  | some p => exact Table.key_of_find found

end PeerConfig

namespace Device

variable {w : Wgtypes}

def remove (d : Device w) (key : w.Key) : Device w where
  peers := d.peers.filter (·.publicKey ≠ key)
  routed := fun p hp q hq =>
    d.routed p (List.mem_filter.mp hp).1 q (List.mem_filter.mp hq).1

/-- Configure a peer and take its networks from all others. -/
def configure (d : Device w) (c : PeerConfig w) : Device w where
  peers := (d.peers.map c.released c.released_publicKey).upsert (c.configured (c.target d))
  routed := by
    have key := c.configured_target_publicKey d
    have disjoint : ∀ q ∈ d.peers.rows, q.publicKey ≠ c.publicKey → ∀ network,
        network ∈ (c.configured (c.target d)).allowedIPs →
        network ∉ (c.released q).allowedIPs := by
      intro q hq other network hp released
      obtain ⟨inQ, notNew⟩ := List.mem_filter.mp released
      have old : network ∈ (c.target d).allowedIPs := by
        simp only [PeerConfig.configured, List.mem_dedup, List.mem_append] at hp
        rcases hp with hp | hp
        · split at hp
          · cases hp
          · exact hp
        · exact absurd hp (by simpa using notNew)
      simp only [PeerConfig.target] at old
      cases found : d.find c.publicKey with
      | none =>
        rw [found] at old
        cases old
      | some p =>
        rw [found] at old
        have same := d.routed p (Table.mem_of_find found) q hq network old inQ
        exact other (same ▸ Table.key_of_find found)
    intro p hp q hq network inP inQ
    rw [Table.mem_upsert, key] at hp hq
    rcases hp with rfl | ⟨hp, otherP⟩ <;> rcases hq with rfl | ⟨hq, otherQ⟩
    · rfl
    · obtain ⟨q, stored, rfl⟩ := List.mem_map.mp hq
      exact absurd inQ (disjoint q stored otherQ network inP)
    · obtain ⟨p, stored, rfl⟩ := List.mem_map.mp hp
      exact absurd inP (disjoint p stored otherP network inQ)
    · obtain ⟨p, storedP, rfl⟩ := List.mem_map.mp hp
      obtain ⟨q, storedQ, rfl⟩ := List.mem_map.mp hq
      rw [d.routed p storedP q storedQ network (List.mem_filter.mp inP).1
        (List.mem_filter.mp inQ).1]

end Device

def plainClient (w : Wgtypes) : Client w where
  configurePeer := fun d c =>
    if c.remove then d.remove c.publicKey
    else if c.updateOnly ∧ d.find c.publicKey = none then d
    else d.configure c
  find_configurePeer := by
    intro d c k
    have expected : ∀ p q : Option (WgPeer w), p = q → Option.Rel WgPeer.Same p q :=
      fun p q same => same ▸ WgPeer.rel_refl p
    refine expected _ _ ?_
    unfold PeerConfig.outcome
    split
    · rw [Device.find, Device.remove, Table.find_filter]
      cases found : d.peers.find k with
      | none => simp [Device.find, found]
      | some p => by_cases same : k = c.publicKey <;>
          simp [Device.find, found, Table.key_of_find found, same]
    · split
      · rfl
      · rw [Device.find, Device.configure, Table.find_upsert, Table.find_map]
        rw [c.configured_target_publicKey d]
        simp only [eq_comm]
        rfl

end WgPortal.WgController
