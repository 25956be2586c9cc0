import WgPortal.Domain.Basic

/-! The configuration values that the modelled functions read. -/

namespace WgPortal.Config

open Domain

structure Core where
  selfProvisioningAllowed : Bool
  editableKeys : Bool
  clusterNodeId : String
  /-- whether this node is responsible for cleanup operations -/
  master : Bool
  /-- always use the addresses of clients as allowed IPs -/
  forceClientIPAsAllowedIP : Bool
  /-- delete expired peers instead of disabling them -/
  deleteExpiredPeers : Bool
  defaultUserTTL : String
  /-- enable the peers of a user again that were disabled with the user -/
  reEnablePeerAfterUserEnable : Bool
  /-- delete the peers of a deleted user instead of disabling them -/
  deletePeerAfterUserDeleted : Bool
  /-- create peers for a user who logs in and has none -/
  createDefaultPeer : Bool
  createDefaultPeerOnCreation : Bool
  /-- leave the rule of the main routing table alone -/
  ignoreMainDefaultRoute : Bool

structure Advanced where
  limitAdditionalUserPeers : Int
  /-- where configuration files are written, if anywhere -/
  configStoragePath : String
  rulePrioOffset : Int
  startCidrV4 : String
  startCidrV6 : String
  useIpV6 : Bool

structure Statistics where
  usePingChecks : Bool
  /-- only export metrics of connected peers -/
  onlyExportConnectedPeers : Bool

structure Config where
  core : Core
  advanced : Advanced
  statistics : Statistics

/-- The defaults of these values. -/
def defaultConfig : Config where
  core :=
    { selfProvisioningAllowed := false
      editableKeys := true
      clusterNodeId := ""
      master := false
      forceClientIPAsAllowedIP := false
      deleteExpiredPeers := false
      defaultUserTTL := "30d"
      reEnablePeerAfterUserEnable := true
      deletePeerAfterUserDeleted := false
      createDefaultPeer := false
      createDefaultPeerOnCreation := false
      ignoreMainDefaultRoute := false }
  advanced :=
    { limitAdditionalUserPeers := 0
      configStoragePath := ""
      rulePrioOffset := 20000
      startCidrV4 := "10.11.12.0/24"
      startCidrV6 := "fdfd:d3ad:c0de:1234::0/64"
      useIpV6 := true }
  statistics := { usePingChecks := false, onlyExportConnectedPeers := false }

def masterConfig : Config :=
  { defaultConfig with core := { defaultConfig.core with master := true } }

end WgPortal.Config
