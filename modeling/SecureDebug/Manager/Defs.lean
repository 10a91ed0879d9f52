import SecureDebug.Driver.Defs
import Mathlib.Data.List.DropRight

/-! The secure debug manager, function by function. As in the driver log output is left out
and heap allocation succeeds. A member function that changes the object returns the new one
next to its result; the authentication parameters are never looked at. -/

namespace SecureDebug
open Interaction Program

/-- What the code uses of the headers of psa-adac. The packets are laid out as 16 reserved
bits, 16 bits of command or status, 32 bits of data count and the data, little-endian. -/
structure PsaAdac where
  adacSuccess : Nat
  adacNeedMoreData : Nat
  adacAuthStartCmd : Nat
  adacAuthResponseCmd : Nat
  psaBinaryCrt : UInt16
  sizeofPsaAuthChallenge : Nat
  offsetChallengeVector : Nat
  sizeofChallengeVector : Nat
  success_ne_needMoreData : adacSuccess ≠ adacNeedMoreData
  vector_pos : 0 < sizeofChallengeVector
  vector_le : offsetChallengeVector + sizeofChallengeVector ≤ sizeofPsaAuthChallenge
  challenge_dvd : 4 ∣ sizeofPsaAuthChallenge
  challenge_le : sizeofPsaAuthChallenge ≤ 4088

/-- The values of the Authenticated Debug Access Control specification. -/
def PsaAdac.standard : PsaAdac where
  adacSuccess := 0
  adacNeedMoreData := 2
  adacAuthStartCmd := 2
  adacAuthResponseCmd := 3
  psaBinaryCrt := 0x0201
  sizeofPsaAuthChallenge := 36
  offsetChallengeVector := 4
  sizeofChallengeVector := 32
  success_ne_needMoreData := by decide
  vector_pos := by decide
  vector_le := by decide
  challenge_dvd := by decide
  challenge_le := by decide

/-! ### Configuration -/

def sdmConfigLockOnClose : Bool := false
def sdmConfigResetOnClose : Bool := false
def sdmConfigRemoteResetType : ECPDRemoteResetType := .system
def sdmConfigComHwTxBlocking : Bool := true

def sdResponseLength : Nat := 6

def protocol : List UInt8 := [0x50, 0x53, 0x41, 0x44, 0x42, 0x47]

def bufferSize : Nat := 4096

def filenameMax : Nat := 4096

/-! ### Packets -/

/-- `sizeof(request_packet_t)` and `sizeof(response_packet_t)`, the header alone. -/
def sizeofPacket : Nat := 8

def leNat : List UInt8 → Nat
  | [] => 0
  | byte :: bytes => byte.toNat + 256 * leNat bytes

def leBytes : Nat → Nat → List UInt8
  | 0, _ => []
  | size + 1, n => UInt8.ofNat n :: leBytes size (n / 256)

/-- `packet->status`, in the place of `packet->command`. -/
def packetStatus (packet : List UInt8) : Nat := leNat ((packet.drop 2).take 2)

def packetDataCount (packet : List UInt8) : Nat := leNat ((packet.drop 4).take 4)

def checkProtocol (idResBuff protId : List UInt8) : SDMReturnCode :=
  if protId.take sdResponseLength ≠ idResBuff.take sdResponseLength then .unsupportedOperation
  else .success

/-- `\s` of the regular expressions. -/
def isSpace (c : Char) : Bool := c.isWhitespace || c = '\x0b' || c = '\x0c'

def userInputStringTrim (inputText : String) : String :=
  String.ofList ((inputText.toList.rdropWhile isSpace).dropWhile isSpace)

structure SecureDebugManagerImpl where
  mMsgBuffer : List UInt8
  mSdmOpenParams : SDMOpenParameters
  mExtComPortDriver : Option ExternalComPortDriver
  mOpen : Bool
  deriving DecidableEq, Repr

namespace SecureDebugManagerImpl

def new : SecureDebugManagerImpl where
  mMsgBuffer := List.replicate bufferSize 0
  mSdmOpenParams := ⟨.armADIv5, none⟩
  mExtComPortDriver := none
  mOpen := false

variable (this : SecureDebugManagerImpl) (psa : PsaAdac)

def updateProgress (progressMessage : String) (percentComplete : UInt8) : Sdm Unit := do
  let callbacks ← deref this.mSdmOpenParams.callbacks
  if callbacks.updateProgress then callHost (.updateProgress progressMessage percentComplete)

/-! ### Packets on the link -/

/-- `packet` is the memory behind the pointer, which is never null. -/
def requestPacketSend (packet : List UInt8) : Sdm SDMReturnCode := do
  let size := sizeofPacket + 4 * packetDataCount packet
  let driver ← deref this.mExtComPortDriver
  let txBuffer ← lift (peek packet 0 size)
  let (res, _) ← driver.eComPortTx txBuffer 0 sdmConfigComHwTxBlocking
  return res

/-- Returns the code and the memory behind `packet`, which is never null. The length that
`EComPort_Rx` reports is not used. -/
def responsePacketReceive (fuel : Nat) (packet : List UInt8) (max : Nat) :
    Sdm (SDMReturnCode × List UInt8) := do
  if max = 0 then return (.internalError, packet)
  let driver ← deref this.mExtComPortDriver
  let rx ← driver.eComPortRx fuel packet max 0
  return (rx.res, rx.rxBuffer)

/-- The first two bytes of the packet are whatever is on the stack. -/
def sendAuthStartCmdRequest : Sdm SDMReturnCode := do
  let reserved ← callHost (.uninitialised 2)
  this.requestPacketSend (reserved.toList ++ leBytes 2 psa.adacAuthStartCmd ++ leBytes 4 0)

/-- Returns the code, the challenge and the object; the challenge is set on success only.
The comparison of sizes is one of 32-bit numbers. -/
def receiveAuthStartCmdResponse (fuel : Nat) :
    Sdm (SDMReturnCode × List UInt8 × SecureDebugManagerImpl) := do
  let max := this.mMsgBuffer.length - sizeofPacket
  let (res, response) ← this.responsePacketReceive fuel this.mMsgBuffer max
  let this := { this with mMsgBuffer := response }
  if res ≠ .success then return (res, [], this)
  if packetDataCount response * 4 % 2 ^ 32 ≠ psa.sizeofPsaAuthChallenge then
    return (.internalError, [], this)
  let challenge ← lift (peek response sizeofPacket psa.sizeofPsaAuthChallenge)
  return (.success, challenge, this)

/-- `cert` holds the `certLength` bytes to send. -/
def sendAuthResponseCmdRequest (cert : List UInt8) :
    Sdm (SDMReturnCode × SecureDebugManagerImpl) := do
  let request ← lift (poke this.mMsgBuffer 2 (leBytes 2 psa.adacAuthResponseCmd))
  let request ← lift (poke request 4 (leBytes 4 (cert.length / 4)))
  let request ← lift (poke request sizeofPacket cert)
  let this := { this with mMsgBuffer := request }
  let res ← this.requestPacketSend request
  return (res, this)

def receiveAuthResponseCmdResponse (fuel : Nat) : Sdm (SDMReturnCode × SecureDebugManagerImpl) := do
  let max := this.mMsgBuffer.length - sizeofPacket
  let (res, response) ← this.responsePacketReceive fuel this.mMsgBuffer max
  let this := { this with mMsgBuffer := response }
  if res ≠ .success then return (res, this)
  if packetStatus response ≠ psa.adacSuccess ∧ packetStatus response ≠ psa.adacNeedMoreData then
    return (.internalError, this)
  return (.success, this)

/-! ### Authentication -/

def keyFileElement : SDMFormElement where
  id := "key_file"
  title := "Please provide private key file path: "
  help := ""
  pathBufferLength := filenameMax

def trustChainFileElement : SDMFormElement where
  id := "trust_chain_file"
  title := "Please provide trust chain file path: "
  help := ""
  pathBufferLength := filenameMax

def credentialsForm : SDMForm where
  id := "credentials_form"
  title := "Credentials form"
  elements := [keyFileElement, trustChainFileElement]

/-- `chain`, `signature_type` and `handle`, which `loadCredentials` hands out. -/
structure Credentials where
  chain : List UInt8 := []
  signatureType : UInt8 := 0
  handle : UInt32 := 0
  deriving DecidableEq, Repr

def loadCredentials : Sdm (SDMReturnCode × Credentials) := do
  let callbacks ← deref this.mSdmOpenParams.callbacks
  if !callbacks.presentForm then return (.internalError, {})
  let (res, paths) ← callHost (.presentForm credentialsForm)
  if res ≠ .success then return (res, {})
  let keyFileStr := userInputStringTrim (paths.getD 0 "")
  let (err, signatureType, handle) ← callHost (.importPrivateKey keyFileStr)
  if err ≠ 0 then return (.internalError, { signatureType, handle })
  let chainFileStr := userInputStringTrim (paths.getD 1 "")
  let (err, chain) ← callHost (.loadTrustChain chainFileStr)
  if err ≠ 0 then return (.internalError, { signatureType, handle })
  return (.success, { chain, signatureType, handle })

def sendCertificates (psa : PsaAdac) (fuel : Nat) :
    List PsaTlv → SecureDebugManagerImpl → Sdm (SDMReturnCode × SecureDebugManagerImpl)
  | [], this => return (.success, this)
  | ext :: exts, this => do
    if ext.typeId = psa.psaBinaryCrt then
      let (res, this) ← this.sendAuthResponseCmdRequest psa ext.bytes
      if res ≠ .success then return (.internalError, this)
      let (res, this) ← this.receiveAuthResponseCmdResponse psa fuel
      if res ≠ .success then return (.internalError, this)
      sendCertificates psa fuel exts this
    else sendCertificates psa fuel exts this

def sdmAuthenticate (fuel : Nat) : Sdm (SDMReturnCode × SecureDebugManagerImpl) := do
  if !this.mOpen then return (.internalError, this)
  this.updateProgress "Loading credentials" 0
  let (res, credentials) ← this.loadCredentials
  if res ≠ .success then return (.internalError, this)
  this.updateProgress "Sending challenge request" 20
  let res ← this.sendAuthStartCmdRequest psa
  if res ≠ .success then return (.internalError, this)
  this.updateProgress "Receiving challenge" 30
  let (res, challenge, this) ← this.receiveAuthStartCmdResponse psa fuel
  if res ≠ .success then return (.internalError, this)
  this.updateProgress "Signing token" 40
  let challengeVector := (challenge.drop psa.offsetChallengeVector).take psa.sizeofChallengeVector
  let (adacRes, token) ← callHost
    (.psaAdacSignToken challengeVector credentials.signatureType credentials.handle)
  if adacRes < 0 then return (.internalError, this)
  this.updateProgress "Parsing trust chain" 50
  let (adacRes, exts) ← callHost (.splitTlvStatic credentials.chain)
  if adacRes < 0 then return (.internalError, this)
  this.updateProgress "Sending challenge response" 60
  let (res, this) ← sendCertificates psa fuel exts this
  if res ≠ .success then return (.internalError, this)
  this.updateProgress "Receiving token authentication status" 90
  let (res, this) ← this.sendAuthResponseCmdRequest psa token
  if res ≠ .success then return (.internalError, this)
  let (res, this) ← this.receiveAuthResponseCmdResponse psa fuel
  if res ≠ .success then return (.internalError, this)
  this.updateProgress "Finished authentication" 100
  return (.success, this)

/-! ### Opening and closing -/

def sdmOpen (fuel : Nat) (params : Option SDMOpenParameters) :
    Sdm (SDMReturnCode × SecureDebugManagerImpl) := do
  if this.mOpen then return (.internalError, this)
  let some params := params | return (.invalidArgument, this)
  let callbacks ← deref params.callbacks
  let driver := ExternalComPortDriver.new params.debugArchitecture callbacks.registerAccess
    callbacks.resetStart callbacks.resetFinish
  let this := { this with mExtComPortDriver := some driver }
  let adacRes ← callHost .psaAdacInit
  if adacRes < 0 then return (.internalError, this)
  let this := { this with mSdmOpenParams := params }
  let idResBuff ← callHost (.uninitialised sdResponseLength)
  let out ← driver.eComPortInit fuel sdmConfigRemoteResetType idResBuff.toList sdResponseLength
  let this := { this with mExtComPortDriver := some out.driver }
  if out.res ≠ .success then return (out.res, this)
  let res := checkProtocol out.idResponseBuffer protocol
  if res ≠ .success then return (res, this)
  return (.success, { this with mOpen := true })

def sdmResumeBoot (_this : SecureDebugManagerImpl) : Sdm SDMReturnCode := return .success

/-- `EComPort_Finalize` and the remote reset, as far as the configuration has them. -/
def closeLink (fuel : Nat) : Sdm SDMReturnCode := do
  let res ← if sdmConfigLockOnClose then do
      let driver ← deref this.mExtComPortDriver
      driver.eComPortFinalize fuel
    else return .success
  if sdmConfigResetOnClose ∧ res = .success ∧ sdmConfigRemoteResetType = .com then do
    let driver ← deref this.mExtComPortDriver
    driver.eComPortRReboot
  else return res

def sdmClose (fuel : Nat) : Sdm (SDMReturnCode × SecureDebugManagerImpl) := do
  if !this.mOpen then return (.internalError, this)
  let res ← this.closeLink fuel
  return (res, { this with mOpen := false })

end SecureDebugManagerImpl
end SecureDebug
