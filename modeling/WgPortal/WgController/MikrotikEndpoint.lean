import WgPortal.WgController.MikrotikObjects

/-! The endpoints of peers as they are written to a Mikrotik router and read from it. -/

namespace WgPortal.WgController.Mikrotik

open Domain

/-- A host name or an IPv4 address has no colon, and an IPv6 address has some. -/
inductive Host where
  | plain (text : String) (named : text ≠ "") (noColon : ':' ∉ text.toList)
  | bracketed (address : String) (colon : ':' ∈ address.toList)

def Host.text : Host → String
  | plain text _ _ => text
  | bracketed address _ => "[" ++ address ++ "]"

def Host.isPlain : Host → Bool
  | plain .. => true
  | bracketed .. => false

/-- An endpoint of the form `host:port` -/
structure HostPort where
  host : Host
  port : String
  notEmpty : port ≠ ""
  digits : ∀ c ∈ port.toList, c.isDigit = true

def HostPort.text (e : HostPort) : String := e.host.text ++ ":" ++ e.port

/-- The router reports the configured endpoint as the current one. -/
structure Reports (written reported : GenericJsonObject) : Prop where
  address : reported.getString "current-endpoint-address" = written.getString "endpoint-address"
  port : reported.getString "current-endpoint-port" = written.getString "endpoint-port"

/-- The endpoint comes back as it was written, and no other one is written like it. -/
structure Kept (e : HostPort) : Prop where
  roundTrip : ∀ (extras : MikrotikPeerExtras) (pp : PhysicalPeer) (now : Time)
    (reported : GenericJsonObject), pp.endpoint = e.text →
    Reports (peerPayload extras pp) reported →
    (convertWireGuardPeer now reported).endpoint = e.text
  apart : ∀ (extras extras' : MikrotikPeerExtras) (pp pp' : PhysicalPeer) (e' : HostPort),
    pp.endpoint = e.text → pp'.endpoint = e'.text →
    (peerPayload extras pp).getString "endpoint-address" =
      (peerPayload extras' pp').getString "endpoint-address" →
    (peerPayload extras pp).getString "endpoint-port" =
      (peerPayload extras' pp').getString "endpoint-port" → e.text = e'.text

theorem Host.noColon {host : Host} (isPlain : host.isPlain = true) : ':' ∉ host.text.toList := by
  cases host with
  | plain text named noColon => exact noColon
  | bracketed address colon => cases isPlain

theorem toList_text (e : HostPort) :
    e.text.toList = e.host.text.toList ++ ':' :: e.port.toList := by
  rw [HostPort.text, String.toList_append, String.toList_append, List.append_assoc]
  rfl

theorem splitOn_text (e : HostPort) :
    e.text.toList.splitOn ':' = e.host.text.toList.splitOn ':' ++ [e.port.toList] := by
  have noColon : ':' ∉ e.port.toList := fun listed => absurd (e.digits ':' listed) (by decide)
  rw [toList_text, List.splitOn_append_cons_self, List.splitOn_eq_singleton noColon]

theorem endpointParts_plain {e : HostPort} (plain : e.host.isPlain = true) :
    endpointParts e.text = (e.host.text, e.port) := by
  rw [endpointParts, splitOn_text, List.splitOn_eq_singleton (Host.noColon plain)]
  exact Prod.ext String.ofList_toList String.ofList_toList

/-- The parts of an IPv6 address and the port are more than two. -/
theorem endpointParts_bracketed {e : HostPort} (bracketed : e.host.isPlain = false) :
    endpointParts e.text = (e.text, "51820") := by
  have long : 2 < (e.text.toList.splitOn ':').length := by
    obtain ⟨host, port, notEmpty, digits⟩ := e
    cases host with
    | plain text named noColon => cases bracketed
    | bracketed address colon =>
      obtain ⟨front, back, split⟩ := List.append_of_mem colon
      have host : (Host.bracketed address colon).text.toList =
          ('[' :: front) ++ ':' :: (back ++ [']']) := by
        simp [Host.text, split]
      have first := List.length_pos_iff.mpr (List.splitOn_ne_nil ':' ('[' :: front))
      have second := List.length_pos_iff.mpr (List.splitOn_ne_nil ':' (back ++ [']']))
      rw [splitOn_text, host, List.splitOn_append_cons_self, List.length_append,
        List.length_append, List.length_singleton]
      omega
  rw [endpointParts]
  split
  · rename_i parts
    rw [parts] at long
    exact absurd long (Nat.lt_irrefl 2)
  · rfl

/-- What is written tells endpoints apart. -/
theorem text_of_endpointParts {e e' : HostPort}
    (same : endpointParts e.text = endpointParts e'.text) : e.text = e'.text := by
  have mixed : ∀ e e' : HostPort, e.host.isPlain = true → e'.host.isPlain = false →
      endpointParts e.text ≠ endpointParts e'.text := by
    intro e e' plain bracketed same
    rw [endpointParts_plain plain, endpointParts_bracketed bracketed] at same
    have host : e.host.text = e'.text := congrArg Prod.fst same
    refine Host.noColon plain ?_
    rw [host, toList_text]
    exact List.mem_append_right _ List.mem_cons_self
  cases kind : e.host.isPlain with
  | true =>
    cases kind' : e'.host.isPlain with
    | true =>
      rw [endpointParts_plain kind, endpointParts_plain kind'] at same
      obtain ⟨host, port⟩ := Prod.mk.inj same
      rw [HostPort.text, HostPort.text, host, port]
    | false => exact absurd same (mixed e e' kind kind')
  | false =>
    cases kind' : e'.host.isPlain with
    | true => exact absurd same.symm (mixed e' e kind' kind)
    | false =>
      rw [endpointParts_bracketed kind, endpointParts_bracketed kind'] at same
      exact congrArg Prod.fst same

theorem getString_address (extras : MikrotikPeerExtras) (pp : PhysicalPeer) :
    (peerPayload extras pp).getString "endpoint-address" = (endpointParts pp.endpoint).1 := rfl

theorem getString_port (extras : MikrotikPeerExtras) (pp : PhysicalPeer) :
    (peerPayload extras pp).getString "endpoint-port" = (endpointParts pp.endpoint).2 := rfl

/-- What is read is the address and the port that were written. -/
theorem endpoint_of_reports {extras : MikrotikPeerExtras} {pp : PhysicalPeer} {now : Time}
    {reported : GenericJsonObject} (reports : Reports (peerPayload extras pp) reported)
    {address port : String} (parts : endpointParts pp.endpoint = (address, port))
    (named : address ≠ "") (numbered : port ≠ "") :
    (convertWireGuardPeer now reported).endpoint = address ++ ":" ++ port := by
  have first := reports.address
  have second := reports.port
  rw [getString_address, parts] at first
  rw [getString_port, parts] at second
  rw [convertWireGuardPeer, first, second]
  exact if_pos ⟨named, numbered⟩

theorem text_ne_empty (e : HostPort) : e.text ≠ "" := by
  intro empty
  have list := toList_text e
  rw [empty] at list
  exact absurd list.symm (by simp)

theorem Host.text_ne_empty (host : Host) : host.text ≠ "" := by
  cases host with
  | plain text named noColon => exact named
  | bracketed address colon =>
    intro empty
    have list := congrArg String.toList empty
    rw [Host.text, String.toList_append, String.toList_append] at list
    exact absurd list (by simp)

/-- A router that reports exactly what was written -/
def echo (written : GenericJsonObject) : GenericJsonObject := fun key =>
  if key = "current-endpoint-address" then written "endpoint-address"
  else if key = "current-endpoint-port" then written "endpoint-port"
  else written key

theorem reports_echo (written : GenericJsonObject) : Reports written (echo written) := ⟨rfl, rfl⟩

/-- The address that is written with the default port is not read back. -/
theorem plain_of_kept {e : HostPort} (kept : Kept e) : e.host.isPlain = true := by
  by_contra bracketed
  have bracketed : e.host.isPlain = false := by simpa using bracketed
  let pp := { PhysicalPeer.zero with endpoint := e.text }
  let extras : MikrotikPeerExtras := ⟨"", "", "", false, false, "", "", "", 0⟩
  have parts : endpointParts pp.endpoint = (e.text, "51820") := endpointParts_bracketed bracketed
  have back := kept.roundTrip extras pp 0 _ rfl (reports_echo (peerPayload extras pp))
  rw [endpoint_of_reports (reports_echo _) parts (text_ne_empty e) (by decide)] at back
  have longer := congrArg String.length back
  rw [String.length_append, String.length_append] at longer
  have one : ":".length = 1 := rfl
  omega

/-- Endpoints are kept exactly if their host is no IPv6 address. -/
theorem kept_iff (e : HostPort) : Kept e ↔ e.host.isPlain = true := by
  refine ⟨plain_of_kept, fun plain => ⟨?_, ?_⟩⟩
  · intro extras pp now reported same reports
    have parts : endpointParts pp.endpoint = (e.host.text, e.port) := by
      rw [same, endpointParts_plain plain]
    exact endpoint_of_reports reports parts e.host.text_ne_empty e.notEmpty
  · intro extras extras' pp pp' e' same same' address port
    rw [getString_address, getString_address, same, same'] at address
    rw [getString_port, getString_port, same, same'] at port
    exact text_of_endpointParts (Prod.ext address port)

/-- `[2001:db8::1]:51821` -/
def ipv6Endpoint : HostPort where
  host := .bracketed "2001:db8::1" (by decide)
  port := "51821"
  notEmpty := by decide
  digits := List.forall_iff_forall_mem.mp (by decide)

/-- An IPv6 endpoint is written as a whole, and read with a second port. -/
theorem ipv6Endpoint_lost :
    endpointParts "[2001:db8::1]:51821" = ("[2001:db8::1]:51821", "51820") ∧
      ¬ Kept ipv6Endpoint := by
  refine ⟨by decide, fun kept => ?_⟩
  have plain := plain_of_kept kept
  cases plain

end WgPortal.WgController.Mikrotik
