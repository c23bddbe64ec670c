import SimpleCloudClient.Bench.Host
import SimpleCloudClient.Client.System

/-!
# The programs of the device tests

The two programs that run on the device, `connect` and `update` of `TESTS/dev_mgmt`. A loop that
parses messages until a certain key comes is a call of its own, which replies with the message.
The network, the storage and the client under test are calls with arbitrary results.
-/
namespace SimpleCloudClient.Bench
open CString Memory Procedure

inductive TestCase where
  | connectToNetwork
  | initializeStorage
  | formatStorage
  | initializePdmc
  | bootstrap
  | directory
  | reRegister
  | postResetIdentity
  | lwm2mGet
  | lwm2mSet
  | lwm2mPut
  | lwm2mPost
  | firmwarePrepare
  | firmwareDownload
  | firmwareUpdate
  | postUpdateErase
  | postUpdateIdentity
  deriving DecidableEq, Repr

/-- The calls that return nothing. -/
inductive DeviceCommand where
  | sendKv (m : Message)
  | greenteaSetup (timeout : Nat)
  | testcaseCount (count : Nat)
  | testcaseName (test : TestCase)
  | testCaseStart (test : TestCase) (index : Nat)
  | testCaseFinish (test : TestCase) (passed failed : Int)
  | testsuiteResult (passed : Bool)
  | client (op : Operation)
  | wait (ms : Nat)

/-- The calls that return a status. -/
inductive DeviceStatus where
  | netConnect
  | fsReformat
  | sdErase
  | fsFormat
  | clientInit
  | eraseValue
  | bdErase
  | bdProgram
  | getValueInt
  deriving DecidableEq, Repr

/-- `parseKv` is the loop around `greentea_parse_kv` that ends with one of the keys. -/
inductive DeviceCall where
  | command (command : DeviceCommand)
  | parseKv (keys : List Key)
  | status (call : DeviceStatus)
  | isClientRegistered
  | endpointInfo

def DeviceCall.Reply : DeviceCall → Type
  | .command _ => Unit
  | .parseKv keys => { m : Message // m.key ∈ keys }
  | .status _ => Int32
  | .isClientRegistered => Bool
  | .endpointInfo => Option (List UInt8)

abbrev DeviceEvent := Event DeviceCall.Reply

abbrev DeviceM := Proc Unit DeviceCall DeviceCall.Reply Fault

/-- How a program ends: by `system_reset`, or by waiting for ever. -/
inductive Outcome where
  | reset
  | idle
  deriving DecidableEq, Repr

def tell (c : DeviceCommand) : DeviceM Unit := perform (DeviceCall.command c)
def send (key : Key) (value : List UInt8) : DeviceM Unit := tell (.sendKv ⟨key, value⟩)
def parse (keys : List Key) : DeviceM { m : Message // m.key ∈ keys } :=
  perform (DeviceCall.parseKv keys)
def status (call : DeviceStatus) : DeviceM Int32 := perform (DeviceCall.status call)
def isClientRegistered : DeviceM Bool := perform DeviceCall.isClientRegistered
def endpointInfo : DeviceM (Option (List UInt8)) := perform DeviceCall.endpointInfo

/-- The bytes of a literal. -/
def ascii (s : String) : List UInt8 := s.toList.map fun c => .ofNat c.toNat

def count (b : Bool) : Int := if b then 1 else 0

def testFailed : DeviceM Unit := send .testFailed (number 1)

/-- `test_case_finish` with one of `passed` and `failed`; `more` is added to the former. -/
def finish (test : TestCase) (more : Int) (ok : Bool) : DeviceM Unit :=
  tell (.testCaseFinish test (more + count ok) (count !ok))

/-! ## What both programs do -/

/-- Three tries to connect, with the status so far. -/
def connectNetwork : (tries : Nat) → Int32 → DeviceM Int32
  | 0, netStatus => return netStatus
  | tries + 1, _ => do
    let netStatus ← status .netConnect
    if netStatus = 0 then
      return netStatus
    connectNetwork tries netStatus

def networkTest (index : Nat) (iteration : Int) : DeviceM Unit := do
  tell (.testCaseStart .connectToNetwork index)
  let netStatus ← connectNetwork 3 (-1)
  if netStatus ≠ 0 then
    testFailed
  finish .connectToNetwork iteration (netStatus = 0)

def storageTest (index : Nat) (iteration : Int) : DeviceM Unit := do
  tell (.testCaseStart .initializeStorage index)
  tell (.testCaseFinish .initializeStorage (iteration + 1) 0)

def formatStorage : DeviceM Int32 := do
  let storageStatus ← status .fsReformat
  if storageStatus = 0 then
    return storageStatus
  let storageStatus ← status .sdErase
  if storageStatus ≠ 0 then
    return storageStatus
  status .fsFormat

def formatTest : DeviceM Unit := do
  tell (.testCaseStart .formatStorage 3)
  let storageStatus ← formatStorage
  if storageStatus ≠ 0 then
    testFailed
  finish .formatStorage 0 (storageStatus = 0)

def initTest (iteration : Int) : DeviceM Unit := do
  tell (.testCaseStart .initializePdmc 4)
  let clientStatus ← status .clientInit
  if clientStatus ≠ 0 then
    testFailed
  finish .initializePdmc iteration (clientStatus = 0)

/-- What the constructors and `register_and_connect` leave uninitialised. -/
structure Uninitialised where
  resource : RawMemory
  resourceDef : MccResourceDef

/-- `M2MMethod` -/
def methodGet : UInt32 := 1
def methodPut : UInt32 := 2
def methodPost : UInt32 := 4

def createResource (memory : Uninitialised) (path name : String) : DeviceM Unit :=
  tell (.client (.createResource memory.resource (ofMemory (ascii path)) (ofMemory (ascii name))))

def change (i : Nat) (c : ResourceChange) : DeviceM Unit := tell (.client (.changeResource i c))

def createGetResource (memory : Uninitialised) : DeviceM Unit := do
  createResource memory "5000/0/1" "get_resource"
  change 0 (.observable true)
  change 0 (.methods methodGet)
  change 0 (.setValueString (ofMemory (ascii "test0")))

/-- `while (i-- > 0 && !ready) wait_ms(ms)`, from `i = turns`. -/
def waitFor (ready : DeviceM Bool) (ms : Nat) : (turns : Nat) → DeviceM Unit
  | 0 => return ()
  | turns + 1 => do
    if ← ready then
      return ()
    tell (.wait ms)
    waitFor ready ms turns

/-- `registered` of the application. -/
def registeredCallback : AppCallback := ⟨0⟩

def postTestCallback : AppCallback := ⟨1⟩

/-- `reRegister` is the index of that test case. -/
def registerTest (memory : Uninitialised) (reRegister : Nat) (iteration : Int) : DeviceM Unit := do
  let test := if iteration = 0 then TestCase.bootstrap else .reRegister
  tell (.testCaseStart test (if iteration = 0 then 5 else reRegister))
  tell (.client (.onRegistered (some registeredCallback)))
  tell (.client (.registerAndConnect memory.resourceDef))
  -- wait 120 seconds
  waitFor isClientRegistered 100 1200
  let clientRegistered ← isClientRegistered
  if !clientRegistered then
    testFailed
  finish test 0 clientRegistered

/-- `endpointInfo->internal_endpoint_name`, after a wait. -/
def endpointName (turns : Nat) : DeviceM (List UInt8) := do
  -- `wait`, unlike `wait_ms`, counts seconds
  waitFor (return (← endpointInfo).isSome) 100000 turns
  deref .nullPointer (← endpointInfo)

/-- The host looks for the device in the directory. -/
def directoryTest : DeviceM Bool := do
  tell (.testCaseStart .directory 6)
  let name ← endpointName 100
  send .verifyRegistration name
  let m ← parse [.registered]
  let ok := atoi m.1.value ≠ 0
  if !ok then
    testFailed
  finish .directory 0 ok
  return ok

/-- The host compares the name with the one it knows. -/
def identityTest (test : TestCase) (index : Nat) : DeviceM Bool := do
  tell (.testCaseStart test index)
  let name ← endpointName 50
  send .verifyIdentity name
  let m ← parse [.verified]
  let ok := atoi m.1.value ≠ 0
  finish test 0 ok
  return ok

/-! ## The resource tests -/

/-- The host is asked, and answers with a value, which is checked, or with a timeout. -/
def resourceTest (test : TestCase) (index : Nat) (request : Message) (answer : Key)
    (check : List UInt8 → DeviceM Bool) : DeviceM Bool := do
  tell (.testCaseStart test index)
  send request.key request.value
  let m ← parse [answer, .timeout]
  let ok ← if m.1.key = answer then check m.1.value else pure false
  finish test 0 ok
  return ok

def getRequest : Message := ⟨.verifyLwm2mGetTest, ascii "/5000/0/1"⟩
def setRequest : Message := ⟨.verifyLwm2mSetTest, ascii "/5000/0/1"⟩
def putRequest : Message := ⟨.verifyLwm2mPutTest, ascii "/5000/0/2"⟩
def postRequest : Message := ⟨.verifyLwm2mPostTest, ascii "/5000/0/3"⟩

def getTest : DeviceM Bool :=
  resourceTest .lwm2mGet 9 getRequest .getValue fun value => return value = ascii "test0"

/-- The resource is changed before the host is asked. -/
def setTest : DeviceM Bool := do
  tell (.testCaseStart .lwm2mSet 10)
  change 0 (.setValueString (ofMemory (ascii "test1")))
  send setRequest.key setRequest.value
  let m ← parse [.setValue, .timeout]
  let ok := m.1.key = .setValue ∧ m.1.value = ascii "test1"
  finish .lwm2mSet 0 ok
  return ok

def putTest : DeviceM Bool :=
  resourceTest .lwm2mPut 11 putRequest .resSet fun value => do
    let current ← status .getValueInt
    return atoi value = current.toInt

def postTest : DeviceM Bool :=
  resourceTest .lwm2mPost 12 postRequest .postTestExecuted fun value => return atoi value = 0

/-! ## The two programs -/

/-- The host tells which boot of the test this is. -/
def readIteration : DeviceM Int := do
  let m ← parse [.iteration]
  return atoi m.1.value

/-- Both programs count 10 tests. -/
def manifest (tests : List TestCase) : DeviceM Unit := do
  tell (.testcaseCount 10)
  tests.forM fun test => tell (.testcaseName test)

/-- The part of `spdmc_testsuite_connect` that does not wait for the host. -/
def prepareConnect (memory : Uninitialised) (iteration : Int) : DeviceM Unit := do
  if iteration = 0 then
    manifest [.connectToNetwork, .initializeStorage, .formatStorage, .initializePdmc, .bootstrap,
      .directory, .reRegister, .postResetIdentity, .lwm2mGet, .lwm2mSet, .lwm2mPut, .lwm2mPost]
  networkTest 1 iteration
  storageTest 2 iteration
  if iteration = 0 then
    formatTest
  initTest iteration
  createGetResource memory
  createResource memory "5000/0/2" "put_resource"
  change 1 (.methods (methodPut ||| methodGet))
  change 1 (.setValueInt 1)
  createResource memory "5000/0/3" "post_resource"
  change 2 (.methods methodPost)
  change 2 (.attachPostCallback postTestCallback)
  registerTest memory 7 iteration

/-- The tests after the reset. -/
def connectTests : DeviceM Unit := do
  let _ ← identityTest .postResetIdentity 8
  let getOk ← getTest
  let setOk ← setTest
  let putOk ← putTest
  let postOk ← postTest
  tell (.testsuiteResult (getOk && setOk && putOk && postOk))

def spdmcTestsuiteConnect (memory : Uninitialised) : DeviceM Outcome := do
  send .deviceReady (number 1)
  let iteration ← readIteration
  prepareConnect memory iteration
  if iteration = 0 then
    if ← directoryTest then
      send .testAdvance (number 0)
      let _ ← parse [.reset]
      return .reset
    return .idle
  else
    connectTests
    return .idle

/-- The image as it was built, or with `spdmc_ready_chk` replaced by `firmware_update`. -/
inductive Image where
  | built
  | modified
  deriving DecidableEq, Repr

def Image.readyKey : Image → Key
  | built => .spdmcReadyChk
  | modified => .firmwareUpdate

/-- `MBED_CONF_UPDATE_CLIENT_STORAGE_ADDRESS` and its size are configured. -/
def eraseTest : DeviceM Unit := do
  tell (.testCaseStart .postUpdateErase 11)
  let eraseValue ← status .eraseValue
  let eraseStatus ← if 0 ≤ eraseValue.toInt then status .bdErase else status .bdProgram
  finish .postUpdateErase 0 (eraseStatus = 0)

def prepareTest : DeviceM Unit := do
  tell (.testCaseStart .firmwarePrepare 7)
  send .firmwarePrepare (number 1)
  let m ← parse [.firmwareSent]
  finish .firmwarePrepare 0 (atoi m.1.value ≠ 0)

/-- The part of `spdmc_testsuite_update` that does not wait for the host. -/
def prepareUpdate (memory : Uninitialised) (hasStorage : Bool) (iteration : Int) :
    DeviceM Unit := do
  if iteration = 0 then
    manifest [.initializeStorage, .connectToNetwork, .formatStorage, .initializePdmc, .bootstrap,
      .directory, .firmwarePrepare, .firmwareDownload, .firmwareUpdate, .reRegister,
      .postUpdateErase, .postUpdateIdentity]
  else
    finish .firmwareUpdate 0 true
  storageTest 1 iteration
  if iteration ≠ 0 ∧ hasStorage then
    eraseTest
  networkTest 2 iteration
  if iteration = 0 then
    formatTest
  initTest iteration
  createGetResource memory
  registerTest memory 10 iteration

def spdmcTestsuiteUpdate (memory : Uninitialised) (hasStorage : Bool) (image : Image) :
    DeviceM Outcome := do
  send image.readyKey (number 1)
  let iteration ← readIteration
  prepareUpdate memory hasStorage iteration
  if iteration = 0 then
    if ← directoryTest then
      prepareTest
      tell (.testCaseStart .firmwareDownload 8)
    return .idle
  else
    let identityOk ← identityTest .postUpdateIdentity 12
    tell (.testsuiteResult identityOk)
    return .idle

/-- `main` of a program that is given `timeout` seconds. -/
def main (timeout : Nat) (testsuite : DeviceM Outcome) : DeviceM Outcome := do
  send .deviceBooted (number 1)
  tell (.greenteaSetup timeout)
  testsuite

/-- The programs with the images they are built from. -/
def connectProgram (timeout : Nat) (memory : Uninitialised) (_ : Image) : DeviceM Outcome :=
  main timeout (spdmcTestsuiteConnect memory)

def updateProgram (timeout : Nat) (memory : Uninitialised) (hasStorage : Bool) (image : Image) :
    DeviceM Outcome :=
  main timeout (spdmcTestsuiteUpdate memory hasStorage image)

/-! ## The tests that do not ask the host -/

/-- Calls that tell the host at most that a test has failed. -/
def DeviceCall.Quiet : DeviceCall → Prop
  | .command (.sendKv m) => m.key = .testFailed
  | .command (.testsuiteResult _) => False
  | .parseKv _ => False
  | _ => True

theorem quiet_finish {test : TestCase} {more : Int} {ok : Bool} :
    Calls DeviceCall.Quiet (finish test more ok) := Calls.perform trivial

theorem quiet_testFailed : Calls DeviceCall.Quiet testFailed := Calls.perform rfl

theorem quiet_report {c : Prop} [Decidable c] {test : TestCase} {more : Int} {ok : Bool} :
    Calls DeviceCall.Quiet (do
      if c then
        testFailed
      finish test more ok) := by
  split
  · exact quiet_testFailed.bind fun _ => quiet_finish
  · exact quiet_finish

theorem quiet_status_bind {A : Type} {call : DeviceStatus} {next : Int32 → DeviceM A}
    (h : ∀ n, Calls DeviceCall.Quiet (next n)) : Calls DeviceCall.Quiet (status call >>= next) :=
  ⟨trivial, h⟩

theorem quiet_connectNetwork {tries : Nat} {netStatus : Int32} :
    Calls DeviceCall.Quiet (connectNetwork tries netStatus) := by
  induction tries generalizing netStatus with
  | zero => exact trivial
  | succ tries ih => exact quiet_status_bind fun _ => Calls.ite trivial ih

theorem quiet_networkTest {index : Nat} {iteration : Int} :
    Calls DeviceCall.Quiet (networkTest index iteration) :=
  ⟨trivial, fun _ => quiet_connectNetwork.bind fun _ => quiet_report⟩

theorem quiet_storageTest {index : Nat} {iteration : Int} :
    Calls DeviceCall.Quiet (storageTest index iteration) :=
  ⟨trivial, fun _ => Calls.perform trivial⟩

theorem quiet_formatStorage : Calls DeviceCall.Quiet formatStorage := by
  refine quiet_status_bind fun _ => Calls.ite trivial ?_
  exact quiet_status_bind fun _ => Calls.ite trivial (Calls.perform trivial)

theorem quiet_formatTest : Calls DeviceCall.Quiet formatTest :=
  ⟨trivial, fun _ => quiet_formatStorage.bind fun _ => quiet_report⟩

theorem quiet_initTest {iteration : Int} : Calls DeviceCall.Quiet (initTest iteration) :=
  ⟨trivial, fun _ => quiet_status_bind fun _ => quiet_report⟩

theorem quiet_createGetResource {memory : Uninitialised} :
    Calls DeviceCall.Quiet (createGetResource memory) :=
  ⟨trivial, fun _ => ⟨trivial, fun _ => ⟨trivial, fun _ => Calls.perform trivial⟩⟩⟩

theorem quiet_waitFor {ready : DeviceM Bool} {ms turns : Nat}
    (h : Calls DeviceCall.Quiet ready) : Calls DeviceCall.Quiet (waitFor ready ms turns) := by
  induction turns with
  | zero => exact trivial
  | succ turns ih => exact h.bind fun _ => Calls.ite trivial ⟨trivial, fun _ => ih⟩

theorem quiet_registerTest {memory : Uninitialised} {reRegister : Nat} {iteration : Int} :
    Calls DeviceCall.Quiet (registerTest memory reRegister iteration) := by
  refine ⟨trivial, fun _ => ⟨trivial, fun _ => ⟨trivial, fun _ => ?_⟩⟩⟩
  refine (quiet_waitFor (Calls.perform trivial)).bind fun _ => ⟨trivial, fun _ => ?_⟩
  exact quiet_report

theorem quiet_endpointName {turns : Nat} : Calls DeviceCall.Quiet (endpointName turns) := by
  have hready : Calls DeviceCall.Quiet (do return (← endpointInfo).isSome) :=
    ⟨trivial, fun _ => trivial⟩
  exact (quiet_waitFor hready).bind fun _ => ⟨trivial, fun _ => Calls.deref⟩

theorem quiet_eraseTest : Calls DeviceCall.Quiet eraseTest := by
  refine ⟨trivial, fun _ => quiet_status_bind fun _ => Calls.ite ?_ ?_⟩
  · exact quiet_status_bind fun _ => quiet_finish
  · exact quiet_status_bind fun _ => quiet_finish

theorem quiet_manifest {tests : List TestCase} : Calls DeviceCall.Quiet (manifest tests) := by
  refine ⟨trivial, fun _ => ?_⟩
  induction tests with
  | nil => exact trivial
  | cons test tests ih => exact ⟨trivial, fun _ => ih⟩

theorem quiet_tell_bind {A : Type} {c : DeviceCommand} {next : Unit → DeviceM A}
    (hc : DeviceCall.Quiet (.command c)) (h : Calls DeviceCall.Quiet (next ())) :
    Calls DeviceCall.Quiet (tell c >>= next) :=
  ⟨hc, fun _ => h⟩

theorem quiet_when {A : Type} {c : Prop} [Decidable c] {p : DeviceM Unit} {rest : DeviceM A}
    (hp : Calls DeviceCall.Quiet p) (hrest : Calls DeviceCall.Quiet rest) :
    Calls DeviceCall.Quiet (do
      if c then
        p
      rest) :=
  Calls.ite (hp.bind fun _ => hrest) hrest

theorem quiet_prepareConnect {memory : Uninitialised} {iteration : Int} :
    Calls DeviceCall.Quiet (prepareConnect memory iteration) := by
  refine quiet_when quiet_manifest ?_
  refine quiet_networkTest.bind fun _ => quiet_storageTest.bind fun _ => ?_
  refine quiet_when quiet_formatTest ?_
  refine quiet_initTest.bind fun _ => quiet_createGetResource.bind fun _ => ?_
  iterate 6 refine quiet_tell_bind trivial ?_
  exact quiet_registerTest

theorem quiet_prepareUpdate {memory : Uninitialised} {hasStorage : Bool} {iteration : Int} :
    Calls DeviceCall.Quiet (prepareUpdate memory hasStorage iteration) := by
  have hrest : Calls DeviceCall.Quiet (do
      storageTest 1 iteration
      if iteration ≠ 0 ∧ hasStorage then
        eraseTest
      networkTest 2 iteration
      if iteration = 0 then
        formatTest
      initTest iteration
      createGetResource memory
      registerTest memory 10 iteration) := by
    refine quiet_storageTest.bind fun _ => quiet_when quiet_eraseTest ?_
    refine quiet_networkTest.bind fun _ => quiet_when quiet_formatTest ?_
    refine quiet_initTest.bind fun _ => quiet_createGetResource.bind fun _ => ?_
    exact quiet_registerTest
  exact Calls.ite (quiet_manifest.bind fun _ => hrest) (quiet_finish.bind fun _ => hrest)

/-! ## The messages that the programs send and wait for -/

/-- A program sends nothing but these messages and waits for nothing but these keys. -/
def Asks (ok : Message → Prop) (hears : List Key → Prop) : DeviceCall → Prop
  | .command (.sendKv m) => ok m
  | .parseKv keys => hears keys
  | _ => True

section
variable {A : Type} {ok : Message → Prop} {hears : List Key → Prop} {p : DeviceM A}
  {test : TestCase} {index : Nat}

theorem asks_quiet (hok : ∀ m, m.key = .testFailed → ok m) (h : Calls DeviceCall.Quiet p) :
    Calls (Asks ok hears) p := by
  refine h.mono fun c hc => ?_
  cases c with
  | command command =>
    cases command with
    | sendKv m => exact hok m hc
    | _ => exact trivial
  | parseKv keys => exact hc.elim
  | _ => exact trivial

theorem asks_send_bind {m : Message} {next : Unit → DeviceM A} (hm : ok m)
    (h : Calls (Asks ok hears) (next ())) : Calls (Asks ok hears) (send m.key m.value >>= next) :=
  ⟨hm, fun _ => h⟩

theorem asks_parse_bind {keys : List Key} {next : { m : Message // m.key ∈ keys } → DeviceM A}
    (hkeys : hears keys) (h : ∀ m, Calls (Asks ok hears) (next m)) :
    Calls (Asks ok hears) (parse keys >>= next) :=
  ⟨hkeys, h⟩

theorem asks_readIteration_bind {next : Int → DeviceM A} (hkeys : hears [.iteration])
    (h : ∀ iteration, Calls (Asks ok hears) (next iteration)) :
    Calls (Asks ok hears) (readIteration >>= next) :=
  ⟨hkeys, fun _ => h _⟩

theorem asks_finish {more : Int} {passed : Bool} :
    Calls (Asks ok hears) (finish test more passed) := ⟨trivial, fun _ => trivial⟩

theorem asks_directoryTest (hok : ∀ m, m.key = .testFailed → ok m)
    (hname : ∀ name, ok ⟨.verifyRegistration, name⟩) (hkeys : hears [.registered]) :
    Calls (Asks ok hears) directoryTest := by
  refine ⟨trivial, fun _ => (asks_quiet hok quiet_endpointName).bind fun name => ?_⟩
  refine asks_send_bind (hname name) (asks_parse_bind hkeys fun m => Calls.ite ?_ ?_)
  · exact (asks_quiet hok quiet_testFailed).bind fun _ => asks_finish.bind fun _ => trivial
  · exact asks_finish.bind fun _ => trivial

theorem asks_identityTest (hok : ∀ m, m.key = .testFailed → ok m)
    (hname : ∀ name, ok ⟨.verifyIdentity, name⟩) (hkeys : hears [.verified]) :
    Calls (Asks ok hears) (identityTest test index) := by
  refine ⟨trivial, fun _ => (asks_quiet hok quiet_endpointName).bind fun name => ?_⟩
  refine asks_send_bind (hname name) (asks_parse_bind hkeys fun m => ?_)
  exact asks_finish.bind fun _ => trivial

theorem asks_resourceTest {request : Message} {answer : Key} {check : List UInt8 → DeviceM Bool}
    (hrequest : ok request) (hkeys : hears [answer, .timeout])
    (hcheck : ∀ value, Calls (Asks ok hears) (check value)) :
    Calls (Asks ok hears) (resourceTest test index request answer check) := by
  refine ⟨trivial, fun _ => asks_send_bind hrequest (asks_parse_bind hkeys fun m => ?_)⟩
  refine Calls.ite ((hcheck _).bind fun _ => ?_) ?_
  · exact asks_finish.bind fun _ => trivial
  · exact asks_finish.bind fun _ => trivial

/-- The requests of the tests after the reset. -/
def resourceRequests : List Message := [getRequest, setRequest, putRequest, postRequest]

/-- The keys that these tests wait for. -/
def resourceKeys : List (List Key) :=
  [[.verified], [.getValue, .timeout], [.setValue, .timeout], [.resSet, .timeout],
    [.postTestExecuted, .timeout]]

theorem asks_connectTests (hok : ∀ m, m.key = .testFailed → ok m)
    (hname : ∀ name, ok ⟨.verifyIdentity, name⟩) (hrequests : ∀ m ∈ resourceRequests, ok m)
    (hkeys : ∀ keys ∈ resourceKeys, hears keys) : Calls (Asks ok hears) connectTests := by
  have hget : Calls (Asks ok hears) getTest :=
    asks_resourceTest (hrequests _ (by decide)) (hkeys _ (by decide)) fun _ => trivial
  have hset : Calls (Asks ok hears) setTest := by
    refine ⟨trivial, fun _ => ⟨trivial, fun _ => ?_⟩⟩
    refine asks_send_bind (hrequests setRequest (by decide)) ?_
    refine asks_parse_bind (hkeys _ (by decide)) fun m => asks_finish.bind fun _ => trivial
  have hput : Calls (Asks ok hears) putTest :=
    asks_resourceTest (hrequests _ (by decide)) (hkeys _ (by decide)) fun _ =>
      ⟨trivial, fun _ => trivial⟩
  have hpost : Calls (Asks ok hears) postTest :=
    asks_resourceTest (hrequests _ (by decide)) (hkeys _ (by decide)) fun _ => trivial
  refine (asks_identityTest hok hname (hkeys _ (by decide))).bind fun _ => ?_
  refine hget.bind fun _ => hset.bind fun _ => hput.bind fun _ => hpost.bind fun _ => ?_
  exact ⟨trivial, fun _ => trivial⟩

end

/-- What the program `connect` sends. -/
def connectAsks (m : Message) : Prop :=
  match m.key with
  | .deviceBooted | .deviceReady | .testAdvance | .testFailed | .verifyRegistration
  | .verifyIdentity => True
  | _ => m ∈ resourceRequests

/-- Each of the resource tests has one request. -/
theorem eq_of_connectAsks {r m : Message} (h : connectAsks r) (hm : m ∈ resourceRequests)
    (hkey : r.key = m.key) : r = m := by
  have hr : r ∈ resourceRequests := by
    simp only [resourceRequests, List.mem_cons, List.not_mem_nil, or_false] at hm
    rcases hm with rfl | rfl | rfl | rfl
    all_goals
      rw [connectAsks, hkey] at h
      exact h
  exact List.inj_on_of_nodup_map (by decide) hr hm hkey

theorem key_of_connectAsks {r : Message} (h : connectAsks r) : r.key ≠ .spdmcReadyChk ∧
    r.key ≠ .firmwareUpdate ∧ (r.key.advances = true → r.key = .testAdvance) := by
  have hresource : ∀ m ∈ resourceRequests, m.key ≠ .spdmcReadyChk ∧ m.key ≠ .firmwareUpdate ∧
      (m.key.advances = true → m.key = .testAdvance) := by decide
  unfold connectAsks at h
  split at h
  case h_7 => exact hresource r h
  all_goals simp_all [Key.advances]

theorem asks_connect {timeout : Nat} {memory : Uninitialised} :
    Calls (Asks connectAsks fun _ => True) (main timeout (spdmcTestsuiteConnect memory)) := by
  have hok (m : Message) (hm : m.key = .testFailed) : connectAsks m := by
    rw [connectAsks, hm]
    exact trivial
  have hrequests : ∀ m ∈ resourceRequests, connectAsks m := by
    simp only [resourceRequests, List.forall_mem_cons]
    simp [connectAsks, getRequest, setRequest, putRequest, postRequest, resourceRequests]
  refine asks_send_bind (m := ⟨.deviceBooted, _⟩) trivial ⟨trivial, fun _ => ?_⟩
  refine asks_send_bind (m := ⟨.deviceReady, _⟩) trivial (asks_readIteration_bind trivial ?_)
  refine fun iteration => (asks_quiet hok quiet_prepareConnect).bind fun _ => Calls.ite ?_ ?_
  · refine (asks_directoryTest hok (fun _ => trivial) trivial).bind fun _ => Calls.ite ?_ trivial
    exact asks_send_bind (m := ⟨.testAdvance, _⟩) trivial
      (asks_parse_bind trivial fun _ => trivial)
  · exact (asks_connectTests hok (fun _ => trivial) hrequests fun _ _ => trivial).bind fun _ =>
      trivial

/-- What the program `update` sends, given its image. -/
def updateAsks (image : Image) (m : Message) : Prop :=
  match m.key with
  | .deviceBooted | .testFailed | .verifyRegistration | .verifyIdentity | .firmwarePrepare => True
  | key => key = image.readyKey

theorem asks_prepareTest {ok : Message → Prop} {hears : List Key → Prop}
    (hok : ∀ value, ok ⟨.firmwarePrepare, value⟩) (hkeys : hears [.firmwareSent]) :
    Calls (Asks ok hears) prepareTest := by
  refine ⟨trivial, fun _ => asks_send_bind (m := ⟨.firmwarePrepare, _⟩) (hok _) ?_⟩
  exact asks_parse_bind hkeys fun _ => asks_finish

theorem asks_update {timeout : Nat} {memory : Uninitialised} {hasStorage : Bool} {image : Image} :
    Calls (Asks (updateAsks image) fun _ => True)
      (main timeout (spdmcTestsuiteUpdate memory hasStorage image)) := by
  have hok (m : Message) (hm : m.key = .testFailed) : updateAsks image m := by
    rw [updateAsks, hm]
    exact trivial
  have hready (value : List UInt8) : updateAsks image ⟨image.readyKey, value⟩ := by
    cases image <;> rfl
  refine asks_send_bind (m := ⟨.deviceBooted, _⟩) trivial ⟨trivial, fun _ => ?_⟩
  refine asks_send_bind (m := ⟨image.readyKey, _⟩) (hready _) (asks_readIteration_bind trivial ?_)
  refine fun iteration => (asks_quiet hok quiet_prepareUpdate).bind fun _ => Calls.ite ?_ ?_
  · refine (asks_directoryTest hok (fun _ => trivial) trivial).bind fun _ => Calls.ite ?_ trivial
    exact (asks_prepareTest (fun _ => trivial) trivial).bind fun _ => ⟨trivial, fun _ => trivial⟩
  · exact (asks_identityTest hok (fun _ => trivial) trivial).bind fun _ =>
      ⟨trivial, fun _ => trivial⟩

end SimpleCloudClient.Bench
