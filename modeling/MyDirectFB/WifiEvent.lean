/-
Events of wpa_supplicant as `WifiEvent` parses them (wifi/wifi_event.cpp).  The
objects that become the extra data are constructed from a part of the text,
which stands for them here.  What is parsed for a log line only is left out.
-/
import MyDirectFB.StringFunctions
import MyDirectFB.Trim

namespace MyDirectFB

/-- `EVENT_TYPE`. -/
inductive EventType where
  | unknown
  | scanStarted
  | scanResults
  | eventBssAdded
  | eventBssRemoved
  | p2pDeviceFound
  | p2pDeviceLost
  | p2pProvDiscPbcReq
  | p2pGoNegRequest
  | p2pGoNegSuccess
  | p2pGoNegFailure
  | p2pInvitationAccepted
  | p2pGroupStarted
  | p2pGroupRemoved
  | p2pGroupFormationSuccess
  | p2pGroupFormationFailure
  | p2pFailedToAddGroup
  | p2pFindStopped
  | eventConnected
  | eventDisconnected
  | apEnabled
  | apDisabled
  | apStaConnected
  | apStaDisconnected
  | tryToAssociate
  | p2pInvitationResult
  | eventSsidTempDisabled
  | eventNetworkNotFound
  | wpsTimeout
  | wpsPskKey
deriving Repr, DecidableEq

/-- An object of `ExtraData`: its type and the text it is constructed from. -/
inductive ExtraData where
  | string (value : List UInt8)
  | wifiP2pDevice (str : List UInt8)
  | wifiP2pGroup (str : List UInt8)
  | wifiP2pConfig (str : List UInt8)
deriving Repr, DecidableEq

structure WifiEvent where
  mType : EventType
  mInterface : List UInt8
  mExtraData : Option ExtraData
deriving Repr, DecidableEq

def SPACE : UInt8 := 32

def LESS : UInt8 := 60

def GREATER : UInt8 := 62

/-- `EVENT_PREFIX_STR`. -/
def EVENT_PREFIX_STR : List UInt8 := ascii "CTRL-EVENT-"

/-- `REQUEST_PREFIX_STR`. -/
def REQUEST_PREFIX_STR : List UInt8 := ascii "CTRL-REQ-"

/-- `P2P_PREFIX_STR`. -/
def P2P_PREFIX_STR : List UInt8 := ascii "P2P-"

namespace WifiEvent

/-- `setExtraData`. -/
def setExtraData (e : WifiEvent) (data : ExtraData) : WifiEvent :=
  { e with mExtraData := some data }

def parseEventMsg (e : WifiEvent) (str : List UInt8) : WifiEvent :=
  if strncmpEq str (ascii "SCAN-STARTED") 12 then
    { e with mType := .scanStarted }
  else if strncmpEq str (ascii "BSS-ADDED") 9 then
    { e with mType := .eventBssAdded }
  else if strncmpEq str (ascii "BSS-REMOVED") 11 then
    { e with mType := .eventBssRemoved }
  else if strncmpEq str (ascii "SCAN-RESULTS") 12 then
    { e with mType := .scanResults }
  else if strncmpEq str (ascii "NETWORK-NOT-FOUND") 17 then
    { e with mType := .eventNetworkNotFound }
  -- A connect and a disconnect are logged and leave the type as it is.
  else if strncmpEq str (ascii "CONNECTED") 9 then e
  else if strncmpEq str (ascii "DISCONNECTED") 12 then e
  else e

def parseRequestMsg (e : WifiEvent) (_str : List UInt8) : WifiEvent :=
  e

/-- The address in an accepted invitation. -/
def invitationAddress (str : List UInt8) : Option (List UInt8) :=
  (strstr str (ascii "sa=")).map fun start =>
    match strchr (start.drop 3) SPACE with
    | none => rtrim (start.drop 3)
    | some (address, _) => rtrim address

/-- The effect of an accepted invitation. -/
def acceptInvitation (e : WifiEvent) (str : List UInt8) : WifiEvent :=
  match invitationAddress str with
  | none => { e with mType := .p2pInvitationAccepted }
  | some address =>
      { e with mType := .p2pInvitationAccepted }.setExtraData (.string address)

def parseP2pMsg (e : WifiEvent) (str : List UInt8) : WifiEvent :=
  if strncmpEq str (ascii "DEVICE-FOUND") 12 then
    { e with mType := .p2pDeviceFound }.setExtraData
      (.wifiP2pDevice (str.drop 12))
  else if strncmpEq str (ascii "DEVICE-LOST") 11 then
    { e with mType := .p2pDeviceLost }.setExtraData
      (.wifiP2pDevice (str.drop 11))
  else if strncmpEq str (ascii "PROV-DISC-PBC-REQ") 17 then
    { e with mType := .p2pProvDiscPbcReq }.setExtraData
      (.wifiP2pDevice (str.drop 17))
  else if strncmpEq str (ascii "INVITATION-ACCEPTED") 19 then
    e.acceptInvitation (str.drop 19)
  else if strncmpEq str (ascii "GO-NEG-REQUEST") 14 then
    { e with mType := .p2pGoNegRequest }.setExtraData
      (.wifiP2pConfig (str.drop 14))
  else if strncmpEq str (ascii "GO-NEG-SUCCESS") 14 then
    { e with mType := .p2pGoNegSuccess }
  else if strncmpEq str (ascii "GO-NEG-FAILURE") 14 then
    { e with mType := .p2pGoNegFailure }
  else if strncmpEq str (ascii "GROUP-STARTED") 13 then
    { e with mType := .p2pGroupStarted }.setExtraData
      (.wifiP2pGroup (str.drop 13))
  else if strncmpEq str (ascii "GROUP-REMOVED") 13 then
    { e with mType := .p2pGroupRemoved }
  else if strncmpEq str (ascii "GROUP-FORMATION-SUCCESS") 23 then
    { e with mType := .p2pGroupFormationSuccess }
  else if strncmpEq str (ascii "GROUP-FORMATION-FAILURE") 23 then
    { e with mType := .p2pGroupFormationFailure }
  else e

def parseOtherMsg (e : WifiEvent) (str : List UInt8) : WifiEvent :=
  if strncmpEq str (ascii "Trying to associate with") 24 then
    { e with mType := .tryToAssociate }
  else if strncmpEq str (ascii "WPS-TIMEOUT") 11 then
    { e with mType := .wpsTimeout }
  else e

/-- The text after the first `IFNAME=`, cut at the next space. -/
def findInterface (str : List UInt8) :
    Option (Option (List UInt8 × List UInt8)) :=
  (strstr str (ascii "IFNAME=")).map fun start => strchr (start.drop 7) SPACE

/-- The part of `parseWpaEvent` under "Parse Interface". -/
def parseInterface (e : WifiEvent) (str : List UInt8) :
    WifiEvent × List UInt8 :=
  match findInterface str with
  | some (some (interface, rest)) => ({ e with mInterface := interface }, rest)
  | some none => (e, str)
  | none => ({ e with mInterface := [] }, str)

/-- The text after the first `<` and the next `>`. -/
def findLevel (str : List UInt8) : Option (List UInt8) :=
  (strchr str LESS).bind fun start =>
    (strchr start.2 GREATER).map fun found => found.2

/-- The part of `parseWpaEvent` under "Parse <?>". -/
def parseLevel (str : List UInt8) : List UInt8 :=
  (findLevel str).getD str

/-- The last part of `parseWpaEvent`. -/
def parseMsg (e : WifiEvent) (str : List UInt8) : WifiEvent :=
  if strncmpEq str EVENT_PREFIX_STR EVENT_PREFIX_STR.length then
    e.parseEventMsg (str.drop EVENT_PREFIX_STR.length)
  else if strncmpEq str REQUEST_PREFIX_STR REQUEST_PREFIX_STR.length then
    e.parseRequestMsg (str.drop REQUEST_PREFIX_STR.length)
  else if strncmpEq str P2P_PREFIX_STR P2P_PREFIX_STR.length then
    e.parseP2pMsg (str.drop P2P_PREFIX_STR.length)
  else e.parseOtherMsg str

/-- `parseWpaEvent`; `none` is a null pointer. -/
def parseWpaEvent (e : WifiEvent) (wpaEventStr : Option CString) : WifiEvent :=
  match wpaEventStr with
  | none => e
  | some text =>
      let found := e.parseInterface text.bytes
      found.1.parseMsg (parseLevel found.2)

/-- The constructor. -/
def new (wpaEventStr : Option CString) : WifiEvent :=
  parseWpaEvent ⟨.unknown, [], none⟩ wpaEventStr

end WifiEvent

end MyDirectFB
