import SimpleCloudClient.Library.Monitor
import SimpleCloudClient.Library.CString
import Mathlib.Data.List.DropRight

/-!
# The host of the device tests

`SDKTests` of `sdk_host_tests.py`: the messages that pass between a device under test and its
host, and the callbacks of the host. A callback runs to its end before the next message is looked
at. What the cloud and the build environment answer is arbitrary.
-/
namespace SimpleCloudClient.Bench
open CString Procedure

/-- The keys of messages, those of the device first. -/
inductive Key where
  | deviceBooted
  | deviceReady
  | testAdvance
  | testFailed
  | verifyRegistration
  | verifyIdentity
  | verifyLwm2mGetTest
  | verifyLwm2mSetTest
  | verifyLwm2mPutTest
  | verifyLwm2mPostTest
  | verifyLwm2mPostTestResult
  | spdmcReadyChk
  | firmwarePrepare
  | firmwareUpdate
  | sync
  | iteration
  | reset
  | registered
  | verified
  | getValue
  | setValue
  | resSet
  | postTestExecuted
  | timeout
  | firmwareSent
  deriving DecidableEq, Repr

structure Message where
  key : Key
  value : List UInt8
  deriving DecidableEq

/-- A number as a value. -/
def number (n : Int) : List UInt8 := (ofInt n).bytes

theorem atoi_number (n : Int) : atoi (number n) = clamp n := by
  rw [atoi_eq_clamp, number, readInt_ofInt]

/-- `int(text)` of Python: blanks, a sign and at least one digit; `none` is a `ValueError`. -/
def pyInt (text : List UInt8) : Option Int :=
  let digits (rest : List UInt8) : Option Int :=
    if rest ≠ [] ∧ rest.all isDigit then some (value rest) else none
  match (text.dropWhile isSpace).rdropWhile isSpace with
  | 45 :: rest => (digits rest).map (-·)
  | 43 :: rest => digits rest
  | rest => digits rest

/-- The callback of the request counts up `iteration`. -/
def Key.advances : Key → Bool
  | testAdvance | firmwareUpdate => true
  | _ => false

/-! ## The state and the calls -/

structure SDKTests where
  deviceID : Option (List UInt8) := none
  postTimeout : Bool := false
  firmwareProc : Bool := false
  firmwareSent : Bool := false
  firmwareFile : Bool := false
  iteration : Nat := 0
  bootCycles : Nat := 0

/-- The requests that `ConnectAPI` answers asynchronously. -/
inductive CloudRequest where
  | getResourceValue (deviceID : Option (List UInt8)) (path : List UInt8)
  | setResourceValue (deviceID : Option (List UInt8)) (path : List UInt8) (value : Int)
  | executeResource (deviceID : Option (List UInt8)) (path : List UInt8)
  deriving DecidableEq

inductive HostCall where
  | sendKv (m : Message)
  | getDevice (deviceID : List UInt8)
  | start (request : CloudRequest)
  | isDone (request : CloudRequest)
  | value (request : CloudRequest)
  | sleep
  | notifyComplete (result : Bool)
  | updateImageExists
  | modifyImage
  | popen
  | terminate
  | removeFile
  deriving DecidableEq

/-- `getDevice` answers whether the state is `"registered"`, and `none` is an exception. The last
ones answer whether they raised none. -/
def HostCall.Reply : HostCall → Type
  | .sendKv _ | .start _ | .sleep | .notifyComplete _ | .terminate => Unit
  | .getDevice _ => Option Bool
  | .isDone _ | .updateImageExists | .modifyImage | .popen | .removeFile => Bool
  | .value _ => List UInt8

instance HostCall.inhabitedReply : ∀ c : HostCall, Inhabited c.Reply
  | .sendKv _ | .start _ | .sleep | .notifyComplete _ | .terminate =>
    inferInstanceAs (Inhabited Unit)
  | .getDevice _ => inferInstanceAs (Inhabited (Option Bool))
  | .isDone _ | .updateImageExists | .modifyImage | .popen | .removeFile =>
    inferInstanceAs (Inhabited Bool)
  | .value _ => inferInstanceAs (Inhabited (List UInt8))

/-- An exception that a callback does not catch. -/
inductive HostFault where
  | valueError
  deriving DecidableEq, Repr

abbrev HostEvent := Event HostCall.Reply

abbrev HostM := Proc SDKTests HostCall HostCall.Reply HostFault

def sendKv (key : Key) (value : List UInt8) : HostM Unit := perform (HostCall.sendKv ⟨key, value⟩)
def start (request : CloudRequest) : HostM Unit := perform (HostCall.start request)
def isDone (request : CloudRequest) : HostM Bool := perform (HostCall.isDone request)
def valueOf (request : CloudRequest) : HostM (List UInt8) := perform (HostCall.value request)
def sleep : HostM Unit := perform HostCall.sleep
def notifyComplete (result : Bool) : HostM Unit := perform (HostCall.notifyComplete result)
def updateImageExists : HostM Bool := perform HostCall.updateImageExists
def modifyImage : HostM Bool := perform HostCall.modifyImage
def popen : HostM Bool := perform HostCall.popen
def removeFile : HostM Bool := perform HostCall.removeFile

namespace SDKTests

/-- A message is sent five times over. -/
def sendSafe (key : Key) (value : List UInt8) : HostM Unit := do
  sendKv key value
  sendKv key value
  sendKv key value
  sendKv key value
  sendKv key value

/-- `while not is_done and timeout <= n`, with `budget` turns to go; returns the turns that are
left. -/
def waitDone (request : CloudRequest) : (budget : Nat) → HostM Nat
  | 0 => do
    let _ ← isDone request
    return 0
  | budget + 1 => do
    if ← isDone request then
      return budget + 1
    sleep
    waitDone request budget

/-! ## Callbacks of every test -/

def deviceBooted : HostM Unit := sendSafe .sync (number 0)

def deviceReady : HostM Unit := do
  update fun self => { self with bootCycles := self.bootCycles + 1 }
  let self ← get
  -- Prevent boot loop due to Mbed OS crash
  if self.bootCycles ≤ 5 then
    sendSafe .iteration (number self.iteration)

def testAdvance : HostM Unit := do
  update fun self => { self with iteration := self.iteration + 1 }
  sendSafe .reset (number 0)

def testFailed : HostM Unit := notifyComplete false

def verifyRegistration (value : List UInt8) : HostM Unit := do
  update fun self => { self with deviceID := some value }
  match ← perform (HostCall.getDevice value) with
  | some true => sendSafe .registered (number 1)
  | _ => sendSafe .registered (number 0)

def verifyIdentity (value : List UInt8) : HostM Unit := do
  let self ← get
  sendSafe .verified (number (if self.deviceID = some value then 1 else 0))

/-! ## Callbacks of the resource tests -/

def verifyLwm2mGet (value : List UInt8) : HostM Unit := do
  let self ← get
  let request := CloudRequest.getResourceValue self.deviceID value
  start request
  let _ ← waitDone request 51
  if !(← isDone request) then
    -- Kick the REST API
    start request
    let _ ← waitDone request 251
  if ← isDone request then
    sendSafe .getValue (← valueOf request)
  else
    sendSafe .timeout (number 0)

def verifyLwm2mSet (value : List UInt8) : HostM Unit := do
  let self ← get
  let request := CloudRequest.getResourceValue self.deviceID value
  start request
  let _ ← waitDone request 301
  if ← isDone request then
    sendSafe .setValue (← valueOf request)
  else
    sendSafe .timeout (number 0)

/-- The second wait goes on with the `timeout` of the first. -/
def verifyLwm2mPut (value : List UInt8) : HostM Unit := do
  let self ← get
  let request := CloudRequest.getResourceValue self.deviceID value
  start request
  let budget ← waitDone request 301
  if !(← isDone request) then
    sendSafe .timeout (number 0)
    return
  let updatedValue := (← deref .valueError (pyInt (← valueOf request))) + 5
  let self ← get
  let request := CloudRequest.setResourceValue self.deviceID value updatedValue
  start request
  let _ ← waitDone request budget
  if !(← isDone request) then
    sendSafe .timeout (number 0)
  else
    sendSafe .resSet (number updatedValue)

def verifyLwm2mPost (value : List UInt8) : HostM Unit := do
  let self ← get
  let request := CloudRequest.executeResource self.deviceID value
  start request
  let _ ← waitDone request 301
  if !(← isDone request) then
    sendSafe .timeout (number 0)
    update fun self => { self with postTimeout := true }

def verifyLwm2mPostResult : HostM Unit := do
  let self ← get
  if !self.postTimeout then
    sendSafe .postTestExecuted (number 0)

/-! ## Callbacks of the update test -/

def firmwareCampaignCleanup : HostM Unit := do
  let self ← get
  if self.firmwareProc then
    perform HostCall.terminate
    update fun self => { self with firmwareProc := false }
    sleep
    let self ← get
    if self.firmwareFile then
      if ← removeFile then
        update fun self => { self with firmwareFile := false }

def firmwareReady : HostM Unit := do
  let self ← get
  if self.firmwareSent then
    firmwareCampaignCleanup
    notifyComplete false
  else
    sendSafe .iteration (number self.iteration)

def firmwarePrepare : HostM Unit := do
  let self ← get
  if self.deviceID.getD [] = [] then
    notifyComplete false
  else if !(← updateImageExists) then
    notifyComplete false
  else if !(← modifyImage) then
    notifyComplete false
  else if !(← popen) then
    firmwareCampaignCleanup
    notifyComplete false
  else
    update fun self => { self with firmwareProc := true, firmwareFile := true }
    update fun self => { self with firmwareSent := true }
    sendSafe .firmwareSent (number 1)

def firmwareUpdate : HostM Unit := do
  firmwareCampaignCleanup
  update fun self => { self with iteration := self.iteration + 1 }
  let self ← get
  sendSafe .iteration (number self.iteration)

/-- The callbacks that `setup` registers. -/
def callback (m : Message) : Option (HostM Unit) :=
  match m.key with
  | .deviceBooted => some deviceBooted
  | .deviceReady => some deviceReady
  | .testAdvance => some testAdvance
  | .testFailed => some testFailed
  | .verifyRegistration => some (verifyRegistration m.value)
  | .verifyIdentity => some (verifyIdentity m.value)
  | .verifyLwm2mGetTest => some (verifyLwm2mGet m.value)
  | .verifyLwm2mSetTest => some (verifyLwm2mSet m.value)
  | .verifyLwm2mPutTest => some (verifyLwm2mPut m.value)
  | .verifyLwm2mPostTest => some (verifyLwm2mPost m.value)
  | .verifyLwm2mPostTestResult => some verifyLwm2mPostResult
  | .spdmcReadyChk => some firmwareReady
  | .firmwarePrepare => some firmwarePrepare
  | .firmwareUpdate => some firmwareUpdate
  | _ => none

end SDKTests

end SimpleCloudClient.Bench
