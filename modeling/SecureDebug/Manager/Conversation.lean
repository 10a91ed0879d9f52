import SecureDebug.Interaction.Refining
import SecureDebug.Manager.Target

/-! What a session is about: an authentication that makes requests and takes the responses to them
as they are, without a message buffer, a frame or a register. What a response holds is read out of
that response alone. -/

namespace SecureDebug
open Interaction Program

/-- What the host does for the authentication, and the two ends of an exchange. -/
inductive ConversationCall where
  | host (c : HostCall)
  | request
  | response

abbrev ConversationCall.Answer : ConversationCall → Type
  | host c => c.Answer
  | request => Unit
  | response => List UInt8

abbrev Conversation : Interface := ⟨ConversationCall, ConversationCall.Answer⟩

abbrev Talk (α : Type) := Program Conversation Stop α

namespace Talk

abbrev request : Talk Unit := perform (I := Conversation) .request

abbrev response : Talk (List UInt8) := perform (I := Conversation) .response

abbrev callHost (c : HostCall) : Talk c.Answer := perform (I := Conversation) (.host c)

def asking {α : Type} (p : Sdm α) : Talk α := p.serve callHost

variable (this : SecureDebugManagerImpl) (psa : PsaAdac)

def receiveAuthStartCmdResponse : Talk (SDMReturnCode × List UInt8) := do
  let response ← response
  if packetDataCount response * 4 % 2 ^ 32 ≠ psa.sizeofPsaAuthChallenge then
    return (.internalError, [])
  return (.success, (response.drop sizeofPacket).take psa.sizeofPsaAuthChallenge)

def receiveAuthResponseCmdResponse : Talk SDMReturnCode := do
  let response ← response
  if packetStatus response ≠ psa.adacSuccess ∧ packetStatus response ≠ psa.adacNeedMoreData then
    return .internalError
  return .success

def sendCertificates (psa : PsaAdac) : List PsaTlv → Talk SDMReturnCode
  | [] => return .success
  | ext :: exts => do
    if ext.typeId = psa.psaBinaryCrt then
      request
      let res ← receiveAuthResponseCmdResponse psa
      if res ≠ .success then return .internalError
      sendCertificates psa exts
    else sendCertificates psa exts

def respond (exts : List PsaTlv) : Talk SDMReturnCode := do
  asking (this.updateProgress "Sending challenge response" 60)
  let res ← sendCertificates psa exts
  if res ≠ .success then return .internalError
  asking (this.updateProgress "Receiving token authentication status" 90)
  request
  let res ← receiveAuthResponseCmdResponse psa
  if res ≠ .success then return .internalError
  asking (this.updateProgress "Finished authentication" 100)
  return .success

def signAndRespond (credentials : SecureDebugManagerImpl.Credentials) (challenge : List UInt8) :
    Talk SDMReturnCode := do
  asking (this.updateProgress "Signing token" 40)
  let challengeVector := (challenge.drop psa.offsetChallengeVector).take psa.sizeofChallengeVector
  let (adacRes, _) ← callHost
    (.psaAdacSignToken challengeVector credentials.signatureType credentials.handle)
  if adacRes < 0 then return .internalError
  asking (this.updateProgress "Parsing trust chain" 50)
  let (adacRes, exts) ← callHost (.splitTlvStatic credentials.chain)
  if adacRes < 0 then return .internalError
  respond this psa exts

def sdmAuthenticate : Talk SDMReturnCode := do
  asking (this.updateProgress "Loading credentials" 0)
  let (res, credentials) ← asking this.loadCredentials
  if res ≠ .success then return .internalError
  asking (this.updateProgress "Sending challenge request" 20)
  request
  asking (this.updateProgress "Receiving challenge" 30)
  let (res, challenge) ← receiveAuthStartCmdResponse psa
  if res ≠ .success then return .internalError
  signAndRespond this psa credentials challenge

/-- The codes of calls one after the other, whatever each of them is. -/
def session : Nat → Talk (List SDMReturnCode)
  | 0 => return []
  | n + 1 => do
    let res ← sdmAuthenticate this psa
    let codes ← session n
    return res :: codes

end Talk

/-! ### What a target shows of it -/

/-- A frame is a request or the answer with its end flag. -/
def Target.shown (w : Target) (o : Observation) : List (Event Conversation) :=
  if o = .wrote flagEND true then [⟨.request, ()⟩]
  else if o = .read flagEND then [⟨.response, w.answer⟩]
  else []

/-- What an event is in the conversation, `w` being where it leaves the target. -/
def ExternalComPortDriver.shown (driver : ExternalComPortDriver) (e : Event Host) (w : Target) :
    List (Event Conversation) :=
  match e with
  | ⟨.registerAccess _, _⟩ => (driver.traffic [e]).flatMap w.shown
  | ⟨.uninitialised _, _⟩ => []
  | ⟨c, ans⟩ => [⟨.host c, ans⟩]

/-- A flag that is read belongs to the answer to the request sent last. -/
def Paired (driver : ExternalComPortDriver) (e : Event Host) (w : Target) : Prop :=
  ∀ byte, driver.traffic [e] = [.read byte] → byte ≠ flagNULL → w.answers = w.requests

/-- A target of the given pace as the world of the library. -/
def Target.world (driver : ExternalComPortDriver) (pace : Pace) : World Host Conversation Target where
  step := Target.Serves driver pace
  shown := driver.shown
  good := Paired driver

end SecureDebug
