import SecureDebug.Types

/-! The external COM port driver, function by function. Log output is left out, heap
allocation succeeds, and a member function takes the driver as its first argument; only
`eComPortInit` changes it. -/

namespace SecureDebug
open Interaction Program

def regDR : UInt32 := 0x20
def regSR : UInt32 := 0x2C
def regDBR : UInt32 := 0x30
def regBaseADIv5 : UInt32 := 0x0
def regBaseADIv6 : UInt32 := 0xD00

abbrev flagIDR : UInt8 := 0xA0
abbrev flagIDA : UInt8 := 0xA1
abbrev flagLPH1RA : UInt8 := 0xA6
abbrev flagLPH1RL : UInt8 := 0xA7
abbrev flagLPH2RA : UInt8 := 0xA8
abbrev flagLPH2RL : UInt8 := 0xA9
abbrev flagLPH2RR : UInt8 := 0xAA
abbrev flagSTART : UInt8 := 0xAC
abbrev flagEND : UInt8 := 0xAD
abbrev flagESC : UInt8 := 0xAE
abbrev flagNULL : UInt8 := 0xAF

inductive ECPDRequiredState where
  | powerOff
  | powerOn
  deriving DecidableEq, Repr

inductive ECPDRemoteResetType where
  | none
  | system
  | com
  deriving DecidableEq, Repr

/-- The three callback fields say whether the `std::function` holds a target. -/
structure ExternalComPortDriver where
  mIsComPortInited : Bool
  mRegisterAccessCallback : Bool
  mResetStartCallback : Bool
  mResetEndCallback : Bool
  mComDeviceRegisterBase : UInt32
  deriving DecidableEq, Repr

/-- The status register as `EComStatus` splits it. -/
structure Status where
  txFree : UInt8 := 0
  txOverflow : UInt8 := 0
  rxData : UInt8 := 0
  linkErrs : UInt8 := 0
  deriving DecidableEq, Repr

structure RxResult where
  res : SDMReturnCode
  rxBuffer : List UInt8
  actualLength : Nat
  deriving DecidableEq, Repr

structure InitResult where
  res : SDMReturnCode
  idResponseBuffer : List UInt8
  driver : ExternalComPortDriver
  deriving DecidableEq, Repr

/-- `PSA_ADAC_ASSERT`: go on if the call succeeds, else leave through `bail` with its code. -/
def psaAdacAssert {β : Type} (bail : SDMReturnCode → β) (call : Sdm SDMReturnCode)
    (rest : Sdm β) : Sdm β := do
  let res ← call
  if res = .success then rest else return bail res

/-- `PSA_ADAC_ASSERT_ERROR`: go on if the condition holds, else leave with the given code. -/
def psaAdacAssertError {β : Type} (bail : SDMReturnCode → β) (cond : Bool)
    (error : SDMReturnCode) (rest : Sdm β) : Sdm β :=
  if cond then rest else return bail error

namespace ExternalComPortDriver
variable (this : ExternalComPortDriver)

def new (arch : SDMDebugArchitecture) (registerAccess resetStart resetEnd : Bool) :
    ExternalComPortDriver where
  mIsComPortInited := false
  mRegisterAccessCallback := registerAccess
  mResetStartCallback := resetStart
  mResetEndCallback := resetEnd
  mComDeviceRegisterBase := match arch with
    | .armADIv5 => regBaseADIv5
    | .armADIv6 => regBaseADIv6

def registerAccess (accesses : List SDMRegisterAccess) : Sdm AccessResult :=
  if this.mRegisterAccessCallback then callHost (.registerAccess accesses)
  else halt .badFunctionCall

def regAddr (reg : UInt32) : UInt64 := (this.mComDeviceRegisterBase + reg).toUInt64

def statusOfSR (srVal : UInt32) : Status where
  txFree := (srVal &&& 0xFF).toUInt8
  txOverflow := if ((1 : UInt32) <<< 13) &&& srVal ≠ 0 then 1 else 0
  rxData := ((srVal >>> 16) &&& 0xFF).toUInt8
  linkErrs := (if ((1 : UInt32) <<< 14) &&& srVal ≠ 0 then 1 else 0) |||
    (if ((1 : UInt32) <<< 30) &&& srVal ≠ 0 then 2 else 0)

def statusAccess : SDMRegisterAccess := { address := this.regAddr regSR, op := .read, value := 0 }

def eComStatus : Sdm (SDMReturnCode × Status) := do
  let a ← this.registerAccess [this.statusAccess]
  if a.result ≠ .success then return (a.result, {})
  if a.accessesCompleted ≠ 1 then return (.requestFailed, {})
  return (a.result, statusOfSR (a.values.getD 0 0))

def writeAccess (block : Bool) (byte : UInt8) : SDMRegisterAccess where
  address := this.regAddr (if block then regDBR else regDR)
  op := .write
  value := 0xAFAFAF00 ||| byte.toUInt32

/-- `inData` holds the `numBytes` bytes to write, one register write each; the other three
bytes of every value are pre-filled with `0xAF`. -/
def eComTxRaw (block : Bool) (inData : List UInt8) : Sdm SDMReturnCode := do
  if inData.length = 0 then return .internalError
  let a ← this.registerAccess (inData.map (this.writeAccess block))
  if a.accessesCompleted ≠ inData.length then return .requestFailed
  return a.result

/-- The copy loop of `EComRxRaw` from index `i` on; the differences are of type `size_t`. -/
def rxRawCopy (outBytesLength : Nat) : List UInt32 → Nat → Nat → List UInt8 →
    Except Stop (List UInt8)
  | [], _, _, outBytes => .ok outBytes
  | drVal :: drVals, i, bytesRemaining, outBytes =>
    let outBytesFree := (outBytesLength + 2 ^ 64 - i) % 2 ^ 64
    let copyBytes := min (min 1 outBytesFree) bytesRemaining
    let bytesRemaining := (bytesRemaining + 2 ^ 64 - 1) % 2 ^ 64
    if copyBytes = 0 then rxRawCopy outBytesLength drVals (i + 1) bytesRemaining outBytes
    else do
      let outBytes ← store outBytes i drVal.toUInt8
      rxRawCopy outBytesLength drVals (i + 1) bytesRemaining outBytes

def readAccess : SDMRegisterAccess := { address := this.regAddr regDR, op := .read, value := 0 }

/-- From `2 ^ 32` reads on the loop that lists them never ends, since its counter is 32 bits
wide. -/
def eComRxRaw (numBytes : Nat) (outBytes : List UInt8) (outBytesLength : Nat) :
    Sdm (SDMReturnCode × List UInt8) := do
  if numBytes = 0 ∨ outBytesLength = 0 then return (.internalError, outBytes)
  if numBytes ≥ 2 ^ 32 then halt .outOfFuel
  let a ← this.registerAccess (List.replicate numBytes this.readAccess)
  if a.result ≠ .success then return (a.result, outBytes)
  if a.accessesCompleted ≠ numBytes then return (.requestFailed, outBytes)
  let drVals := (List.range numBytes).map fun i => a.values.getD i 0
  let outBytes ← lift (rxRawCopy outBytesLength drVals 0 numBytes outBytes)
  return (a.result, outBytes)

/-- `MAX_NUM_OF_RETRIES` of `EComSendByte` and `MAX_ATTEMPTS` of `EComReadByte`. -/
def maxRetries : Nat := 5000

/-- One turn of the loops of `EComSendByte` and `EComReadByte`: whether `level` of the status
just read is other than zero, or the code the function leaves with. -/
def pollOnce (level : Status → UInt8) : Sdm (Except SDMReturnCode Bool) := do
  let (result, status) ← this.eComStatus
  if result ≠ .success then return .error result
  if status.linkErrs ≠ 0 then return .error .ioError
  if status.txOverflow ≠ 0 then return .error .ioError
  return .ok (level status ≠ 0)

/-- `do … while (level == 0 && numOfRetries++ < maxRetries)` with
`numOfRetries = maxRetries - left` on entry; returns `numOfRetries` after the loop. -/
def pollLoop (level : Status → UInt8) (left : Nat) : Sdm (Except SDMReturnCode Nat) := do
  match ← this.pollOnce level with
  | .error result => return .error result
  | .ok true => return .ok (maxRetries - left)
  | .ok false => match left with
    | 0 => return .ok (maxRetries + 1)
    | left + 1 => pollLoop level left

def eComSendByte (byte : UInt8) : Sdm SDMReturnCode := do
  match ← this.pollLoop Status.txFree maxRetries with
  | .error result => return result
  | .ok numOfRetries =>
    if numOfRetries ≥ maxRetries then return .timeoutError
    let result ← this.eComTxRaw false [byte]
    if result ≠ .success then return result
    return .success

/-- The polling branch of `EComSendBlock`. -/
def eComSendBytes : List UInt8 → Sdm SDMReturnCode
  | [] => return .success
  | byte :: byteData => do
    let result ← this.eComSendByte byte
    if result ≠ .success then return result
    eComSendBytes byteData

def eComSendBlock (byteData : List UInt8) (block : Bool) : Sdm SDMReturnCode := do
  if block then
    let result ← this.eComTxRaw true byteData
    if result ≠ .success then return result
    return .success
  else this.eComSendBytes byteData

/-- Returns the code and the new value of `*byte`. -/
def eComReadByte (byte : UInt8) : Sdm (SDMReturnCode × UInt8) := do
  match ← this.pollLoop Status.rxData maxRetries with
  | .error result => return (result, byte)
  | .ok attempt =>
    if attempt ≥ maxRetries then return (.timeoutError, byte)
    let (result, rxData) ← this.eComRxRaw 1 [0] 1
    if result ≠ .success then return (result, byte)
    return (.success, rxData.getD 0 0)

def eComSendFlag (flag : UInt8) : Sdm SDMReturnCode := this.eComSendByte flag

/-- The loop of `EComWaitFlag`; it has no bound of its own, `fuel` is how many turns of it
are looked at. -/
def waitLoop (flag : UInt8) : Nat → UInt8 → Sdm SDMReturnCode
  | 0, _ => halt .outOfFuel
  | fuel + 1, byte => do
    let (result, byte) ← this.eComReadByte byte
    if result ≠ .success then return result
    if byte ≠ flag then waitLoop flag fuel byte else return .success

def eComWaitFlag (fuel : Nat) (flag : UInt8) : Sdm SDMReturnCode :=
  this.waitLoop flag fuel flagNULL

end ExternalComPortDriver

/-! ### Message framing -/

/-- `tempData[outByteIndex++] = byte` with the 16-bit `outByteIndex`. -/
def putByte (out : List UInt8 × Nat) (byte : UInt8) : Except Stop (List UInt8 × Nat) := do
  let tempData ← store out.1 out.2 byte
  return (tempData, (out.2 + 1) % 2 ^ 16)

/-- The bytes matching a flag, that is with upper bits `101`. -/
def isFlagByte (byte : UInt8) : Bool := 0xA0 ≤ byte && byte < 0xC0

def prepareLoop : List UInt8 → List UInt8 × Nat → Except Stop (List UInt8 × Nat)
  | [], out => return out
  | byte :: data, out => do
    if isFlagByte byte then
      let out ← putByte out flagESC
      let out ← putByte out (byte &&& 0x7F)
      prepareLoop data out
    else
      let out ← putByte out byte
      prepareLoop data out

structure PrepareResult where
  res : SDMReturnCode
  outData : List UInt8
  outSize : Nat
  deriving DecidableEq, Repr

/-- From `2 ^ 32` bytes on the loop over `data` never ends, since its counter is 32 bits wide. -/
def eComPortPrepareData (data outData : List UInt8) (outDataBufferSize : Nat) :
    Except Stop PrepareResult := do
  let tempData := List.replicate ((data.length * 2 + 2) % 2 ^ 64) 0
  let out ← putByte (tempData, 0) flagSTART
  if data.length ≥ 2 ^ 32 then throw .outOfFuel
  let out ← prepareLoop data out
  let (tempData, outByteIndex) ← putByte out flagEND
  if outByteIndex > outDataBufferSize then return ⟨.internalError, outData, 0⟩
  if outByteIndex > outData.length then throw .outOfBounds
  return ⟨.success, tempData.take outByteIndex ++ outData.drop outByteIndex, outByteIndex⟩

def maxPreNullFlags : Nat := 10000

/-- The variables of the receive loop. `isEndRecv` is not among them: it is true exactly
when the loop is left through the end flag. -/
structure RxState where
  preNullFlags : Nat
  bufferIdx : Nat
  isStartRecv : Bool
  isEscRecv : Bool
  rxBuffer : List UInt8
  actualLength : Nat
  deriving DecidableEq, Repr

inductive RxStep where
  | more (s : RxState)
  | done (result : RxResult)
  deriving DecidableEq, Repr

/-- The body of the receive loop after `EComRxRaw` succeeded. -/
def rxStep (startFlag : UInt8) (rxBufferLength : Nat) (s : RxState) (readByte : UInt8) :
    Except Stop RxStep :=
  if readByte = flagEND then
    .ok (.done ⟨if s.isStartRecv ^^ true then .internalError else .success, s.rxBuffer, s.actualLength⟩)
  else if readByte = flagNULL then
    let s := if s.isStartRecv then s else { s with preNullFlags := s.preNullFlags + 1 }
    if s.preNullFlags > maxPreNullFlags then .ok (.done ⟨.timeoutError, s.rxBuffer, s.actualLength⟩)
    else .ok (.more s)
  else if readByte = flagESC then .ok (.more { s with isEscRecv := true })
  else if readByte = startFlag then .ok (.more { s with bufferIdx := 0, isStartRecv := true })
  else
    let readByte := if s.isEscRecv then readByte ||| 0x80 else readByte
    if s.bufferIdx ≥ rxBufferLength then .ok (.done ⟨.internalError, s.rxBuffer, s.actualLength⟩)
    else do
      let rxBuffer ← store s.rxBuffer s.bufferIdx readByte
      let bufferIdx := (s.bufferIdx + 1) % 2 ^ 16
      return .more { s with isEscRecv := false, rxBuffer, bufferIdx, actualLength := bufferIdx }

namespace ExternalComPortDriver
variable (this : ExternalComPortDriver)

/-- The receive loop; like `waitLoop` it has no bound of its own. -/
def rxLoop (startFlag : UInt8) (rxBufferLength : Nat) : Nat → RxState → Sdm RxResult
  | 0, _ => halt .outOfFuel
  | fuel + 1, s => do
    let (result, read) ← this.eComRxRaw 1 [0] 1
    if result ≠ .success then return ⟨result, s.rxBuffer, s.actualLength⟩
    match ← lift (rxStep startFlag rxBufferLength s (read.getD 0 0)) with
    | .done out => return out
    | .more s => rxLoop startFlag rxBufferLength fuel s

/-- `rxBuffer` is the memory behind the pointer, `rxBufferLength` the size passed with it. -/
def eComPortRxInt (fuel : Nat) (startFlag : UInt8) (rxBuffer : List UInt8)
    (rxBufferLength actualLength : Nat) : Sdm RxResult :=
  this.rxLoop startFlag rxBufferLength fuel
    { preNullFlags := 0, bufferIdx := 0, isStartRecv := false, isEscRecv := false,
      rxBuffer, actualLength }

/-! ### Public operations -/

def eComPortPower (fuel : Nat) (requiredState : ECPDRequiredState) : Sdm SDMReturnCode :=
  match requiredState with
  | .powerOn =>
    psaAdacAssert id (this.eComSendFlag flagLPH1RL) <|
    psaAdacAssert id (this.eComWaitFlag fuel flagLPH1RL) <|
    psaAdacAssert id (this.eComSendFlag flagLPH1RA) <|
    psaAdacAssert id (this.eComWaitFlag fuel flagLPH1RA) <|
    return .success
  | .powerOff =>
    psaAdacAssert id (this.eComSendFlag flagLPH1RL) <|
    psaAdacAssert id (this.eComWaitFlag fuel flagLPH1RL) <|
    return .success

def eComPortRReboot : Sdm SDMReturnCode :=
  psaAdacAssert id (this.eComSendFlag flagLPH2RR) <| return .success

/-- The block in front of the power handshake. -/
def initResetStart {β : Type} (bail : SDMReturnCode → β) (remoteReset : ECPDRemoteResetType)
    (rest : Sdm β) : Sdm β :=
  if remoteReset = .system then
    psaAdacAssertError bail this.mResetStartCallback .internalError <|
    psaAdacAssertError bail this.mResetEndCallback .internalError <|
    psaAdacAssert bail (callHost .resetStart) rest
  else rest

/-- The block between sending and awaiting `LPH2RA`. -/
def initResetEnd {β : Type} (bail : SDMReturnCode → β) (remoteReset : ECPDRemoteResetType)
    (rest : Sdm β) : Sdm β :=
  match remoteReset with
  | .com => psaAdacAssert bail this.eComPortRReboot rest
  | .system => psaAdacAssert bail (callHost .resetEnd) rest
  | .none => rest

def eComPortInit (fuel : Nat) (remoteReset : ECPDRemoteResetType) (idResponseBuffer : List UInt8)
    (idBufferLength : Nat) : Sdm InitResult :=
  let bail (res : SDMReturnCode) : InitResult := ⟨res, idResponseBuffer, this⟩
  this.initResetStart bail remoteReset <|
  psaAdacAssert bail (this.eComPortPower fuel .powerOn) <|
  psaAdacAssert bail (this.eComSendFlag flagLPH2RA) <|
  this.initResetEnd bail remoteReset <|
  psaAdacAssert bail (this.eComWaitFlag fuel flagLPH2RA) <|
  psaAdacAssert bail (this.eComSendFlag flagIDR) <| do
    let rx ← this.eComPortRxInt fuel flagIDA idResponseBuffer idBufferLength 0
    if rx.res ≠ .success then return ⟨rx.res, rx.rxBuffer, this⟩
    if rx.actualLength = 0 then return ⟨.transferError, rx.rxBuffer, this⟩
    return ⟨.success, rx.rxBuffer, { this with mIsComPortInited := true }⟩

/-- Returns the code and `*actualLength`. -/
def eComPortTx (txBuffer : List UInt8) (actualLength : Nat) (block : Bool) :
    Sdm (SDMReturnCode × Nat) := do
  let tempBuffLen := (txBuffer.length * 2 + 2) % 2 ^ 64
  let tempBuffer := List.replicate tempBuffLen 0
  if !this.mIsComPortInited then return (.requestFailed, actualLength)
  let frame ← lift (eComPortPrepareData txBuffer tempBuffer tempBuffLen)
  if frame.res ≠ .success then return (frame.res, frame.outSize)
  let res ← this.eComSendBlock (frame.outData.take frame.outSize) block
  return (res, frame.outSize)

def eComPortRx (fuel : Nat) (rxBuffer : List UInt8) (rxBufferLength actualLength : Nat) :
    Sdm RxResult := do
  if !this.mIsComPortInited then return ⟨.requestFailed, rxBuffer, actualLength⟩
  this.eComPortRxInt fuel flagSTART rxBuffer rxBufferLength actualLength

def eComPortFinalize (fuel : Nat) : Sdm SDMReturnCode :=
  psaAdacAssert id (this.eComSendFlag flagLPH2RL) <|
  psaAdacAssert id (this.eComWaitFlag fuel flagLPH2RL) <|
  psaAdacAssert id (this.eComPortPower fuel .powerOff) <|
  return .success

end ExternalComPortDriver
end SecureDebug
