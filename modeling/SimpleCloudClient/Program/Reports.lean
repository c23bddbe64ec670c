import SimpleCloudClient.Client.Retry
import SimpleCloudClient.Program.Refinement

/-!
# What a client tells the application

`error` names a code and passes it to the callback of `on_error_cb`, or prints it;
`is_client_registered` and `is_register_called` answer from the flags, and `close` and
`register_update` are passed on to the cloud client. None of them takes part in a registration, so
that they can come between any two operations of a program.
-/
namespace SimpleCloudClient
open Procedure SimpleMbedCloudClient Transition

/-! ## Texts of codes -/

/-- A `switch` that names each of its cases. -/
def textOf {K : Type*} [BEq K] (cases : List (K × String)) (otherwise : String) (code : K) :
    String :=
  (cases.lookup code).getD otherwise

section
variable {K : Type*} [DecidableEq K] {cases : List (K × String)} {otherwise : String} {a b : K}

theorem textOf_of_mem (h : a ∈ AssocList.keys cases) : (a, textOf cases otherwise a) ∈ cases := by
  obtain ⟨text, htext⟩ := Option.isSome_iff_exists.mp (AssocList.isSome_lookup.mpr h)
  obtain ⟨front, back, hsplit, -⟩ := List.lookup_eq_some_iff.mp htext
  rw [textOf, htext, hsplit]
  simp

theorem textOf_of_notMem (h : a ∉ AssocList.keys cases) : textOf cases otherwise a = otherwise := by
  rw [textOf, AssocList.lookup_eq_none.mpr h]
  rfl

/-- Where no two cases have the same text, and none has the default's, the text tells the codes
apart as far as the cases do. -/
theorem textOf_eq_iff (h : (otherwise :: cases.map (·.2)).Nodup) :
    textOf cases otherwise a = textOf cases otherwise b ↔
      a = b ∨ a ∉ AssocList.keys cases ∧ b ∉ AssocList.keys cases := by
  obtain ⟨hdefault, hdistinct⟩ := List.nodup_cons.mp h
  have htext {k : K} (hk : k ∈ AssocList.keys cases) : textOf cases otherwise k ≠ otherwise := by
    intro heq
    exact hdefault (heq ▸ List.mem_map_of_mem (f := Prod.snd) (textOf_of_mem hk))
  by_cases ha : a ∈ AssocList.keys cases <;> by_cases hb : b ∈ AssocList.keys cases
  · refine ⟨fun heq => .inl ?_, ?_⟩
    · exact congrArg Prod.fst (List.inj_on_of_nodup_map hdistinct (textOf_of_mem ha)
        (textOf_of_mem hb) heq)
    · rintro (rfl | ⟨hnot, -⟩)
      · rfl
      · exact absurd ha hnot
  · rw [textOf_of_notMem hb]
    grind
  · rw [textOf_of_notMem ha]
    grind
  · rw [textOf_of_notMem ha, textOf_of_notMem hb]
    grind

end

/-- The members of `MbedCloudClient::Error` that `error` knows. -/
inductive CloudError where
  | connectErrorNone
  | connectAlreadyExists
  | connectBootstrapFailed
  | connectInvalidParameters
  | connectNotRegistered
  | connectTimeout
  | connectNetworkError
  | connectResponseParseFailed
  | connectUnknownError
  | connectMemoryConnectFail
  | connectNotAllowed
  | connectSecureConnectionFailed
  | connectDnsResolvingFailed
  | updateWarningCertificateNotFound
  | updateWarningIdentityNotFound
  | updateWarningCertificateInvalid
  | updateWarningSignatureInvalid
  | updateWarningVendorMismatch
  | updateWarningClassMismatch
  | updateWarningDeviceMismatch
  | updateWarningURINotFound
  | updateWarningRollbackProtection
  | updateWarningUnknown
  | updateErrorWriteToStorage
  | updateErrorInvalidHash
  deriving DecidableEq, Repr

/-- The members of `NoticationDeliveryStatus`. -/
inductive DeliveryStatus where
  | init
  | buildError
  | resendQueueFull
  | sent
  | delivered
  | sendFailed
  | subscribed
  | unsubscribed
  deriving DecidableEq, Repr

/-- The values of the enumerations; the cases of a `switch` are distinct. -/
structure Codes where
  error : CloudError → Int32
  status : DeliveryStatus → Nat
  error_injective : Function.Injective error
  status_injective : Function.Injective status

def connectErrors : List (CloudError × String) :=
  [(.connectErrorNone, "MbedCloudClient::ConnectErrorNone"),
    (.connectAlreadyExists, "MbedCloudClient::ConnectAlreadyExists"),
    (.connectBootstrapFailed, "MbedCloudClient::ConnectBootstrapFailed"),
    (.connectInvalidParameters, "MbedCloudClient::ConnectInvalidParameters"),
    (.connectNotRegistered, "MbedCloudClient::ConnectNotRegistered"),
    (.connectTimeout, "MbedCloudClient::ConnectTimeout"),
    (.connectNetworkError, "MbedCloudClient::ConnectNetworkError"),
    (.connectResponseParseFailed, "MbedCloudClient::ConnectResponseParseFailed"),
    (.connectUnknownError, "MbedCloudClient::ConnectUnknownError"),
    (.connectMemoryConnectFail, "MbedCloudClient::ConnectMemoryConnectFail"),
    (.connectNotAllowed, "MbedCloudClient::ConnectNotAllowed"),
    (.connectSecureConnectionFailed, "MbedCloudClient::ConnectSecureConnectionFailed"),
    (.connectDnsResolvingFailed, "MbedCloudClient::ConnectDnsResolvingFailed")]

def updateErrors : List (CloudError × String) :=
  [(.updateWarningCertificateNotFound, "MbedCloudClient::UpdateWarningCertificateNotFound"),
    (.updateWarningIdentityNotFound, "MbedCloudClient::UpdateWarningIdentityNotFound"),
    (.updateWarningCertificateInvalid, "MbedCloudClient::UpdateWarningCertificateInvalid"),
    (.updateWarningSignatureInvalid, "MbedCloudClient::UpdateWarningSignatureInvalid"),
    (.updateWarningVendorMismatch, "MbedCloudClient::UpdateWarningVendorMismatch"),
    (.updateWarningClassMismatch, "MbedCloudClient::UpdateWarningClassMismatch"),
    (.updateWarningDeviceMismatch, "MbedCloudClient::UpdateWarningDeviceMismatch"),
    (.updateWarningURINotFound, "MbedCloudClient::UpdateWarningURINotFound"),
    (.updateWarningRollbackProtection, "MbedCloudClient::UpdateWarningRollbackProtection"),
    (.updateWarningUnknown, "MbedCloudClient::UpdateWarningUnknown"),
    (.updateErrorWriteToStorage, "MbedCloudClient::UpdateErrorWriteToStorage"),
    (.updateErrorInvalidHash, "MbedCloudClient::UpdateErrorInvalidHash")]

/-- The codes of updates are compiled in with `MBED_CLOUD_CLIENT_SUPPORT_UPDATE`. -/
def errorCases (supportUpdate : Bool) : List (CloudError × String) :=
  connectErrors ++ if supportUpdate then updateErrors else []

def statusCases : List (DeliveryStatus × String) :=
  [(.init, "Init"), (.buildError, "Build error"), (.resendQueueFull, "Resend queue full"),
    (.sent, "Sent"), (.delivered, "Delivered"), (.sendFailed, "Send failed"),
    (.subscribed, "Subscribed"), (.unsubscribed, "Unsubscribed")]

def errorText (codes : Codes) (supportUpdate : Bool) (errorCode : Int32) : String :=
  textOf ((errorCases supportUpdate).map fun p => (codes.error p.1, p.2)) "UNKNOWN" errorCode

def deliveryStatusToString (codes : Codes) (status : Nat) : String :=
  textOf (statusCases.map fun p => (codes.status p.1, p.2)) "Unknown" status

section
variable {codes : Codes} {supportUpdate : Bool}

theorem errorText_eq_iff {a b : Int32} :
    errorText codes supportUpdate a = errorText codes supportUpdate b ↔
      a = b ∨ (∀ p ∈ errorCases supportUpdate, codes.error p.1 ≠ a ∧ codes.error p.1 ≠ b) := by
  have htexts : ("UNKNOWN" :: (errorCases supportUpdate).map (·.2)).Nodup := by
    cases supportUpdate <;> decide +kernel
  rw [errorText, errorText, textOf_eq_iff (by simpa [Function.comp_def] using htexts)]
  simp only [AssocList.keys, List.map_map, List.mem_map, Function.comp_apply]
  grind

theorem deliveryStatusToString_eq_iff {a b : Nat} :
    deliveryStatusToString codes a = deliveryStatusToString codes b ↔
      a = b ∨ ∀ p ∈ statusCases, codes.status p.1 ≠ a ∧ codes.status p.1 ≠ b := by
  have htexts : ("Unknown" :: statusCases.map (·.2)).Nodup := by decide
  rw [deliveryStatusToString, deliveryStatusToString,
    textOf_eq_iff (by simpa [Function.comp_def] using htexts)]
  simp only [AssocList.keys, List.map_map, List.mem_map, Function.comp_apply]
  grind

end

/-! ## Requests -/

/-- What these members reach: those of the instance, and `_error_cb`. -/
structure Reporter where
  self : SimpleMbedCloudClient := {}
  errorCb : Option AppCallback := none

/-- The calls that return nothing. -/
inductive Report where
  | errorCb (cb : AppCallback) (errorCode : Int32) (error : String)
  | printf (text : String)
  | close
  | registerUpdate
  deriving DecidableEq, Repr

inductive ReportCall where
  | report (report : Report)
  | errorDescription
  deriving DecidableEq, Repr

def ReportCall.Reply : ReportCall → Type
  | .report _ => Unit
  | .errorDescription => String

abbrev ReportEvent := Event ReportCall.Reply

abbrev ReportM := Proc Reporter ReportCall ReportCall.Reply Fault

def report (r : Report) : ReportM Unit := perform (ReportCall.report r)
def errorDescription : ReportM String := perform ReportCall.errorDescription

namespace SimpleMbedCloudClient

def error (cfg : Config) (codes : Codes) (errorCode : Int32) : ReportM Unit := do
  let error := errorText codes cfg.supportUpdate errorCode
  let r ← get
  match r.errorCb with
  | some cb => report (.errorCb cb errorCode error)
  | none =>
    report (.printf ("\n[SMCC] Error occurred : " ++ error ++ "\n"))
    report (.printf ("[SMCC] Error code : " ++ toString errorCode.toInt ++ "\n"))
    let details ← errorDescription
    report (.printf ("[SMCC] Error details : " ++ details ++ "\n"))

def onErrorCb (cb : Option AppCallback) : ReportM Unit := update fun r => { r with errorCb := cb }

def isClientRegistered : ReportM Bool := return (← get).self.registered

def isRegisterCalled : ReportM Bool := return (← get).self.registerCalled

def close : ReportM Unit := report .close

def registerUpdate : ReportM Unit := report .registerUpdate

end SimpleMbedCloudClient

inductive Request where
  | error (errorCode : Int32)
  | onErrorCb (cb : Option AppCallback)
  | isClientRegistered
  | isRegisterCalled
  | close
  | registerUpdate

/-- The result of a request: the `bool` of the two that ask for a flag. -/
def Request.body (cfg : Config) (codes : Codes) : Request → ReportM (Option Bool)
  | error errorCode => do SimpleMbedCloudClient.error cfg codes errorCode; return none
  | onErrorCb cb => do SimpleMbedCloudClient.onErrorCb cb; return none
  | isClientRegistered => return some (← SimpleMbedCloudClient.isClientRegistered)
  | isRegisterCalled => return some (← SimpleMbedCloudClient.isRegisterCalled)
  | close => do SimpleMbedCloudClient.close; return none
  | registerUpdate => do SimpleMbedCloudClient.registerUpdate; return none

/-- A program of clients, each with its `_error_cb`. -/
structure Application where
  world : World := {}
  errorCb : Nat → Option AppCallback := fun _ => none

def Application.reporter (s : Application) (client : Nat) : Reporter :=
  ⟨s.world.clients client, s.errorCb client⟩

inductive ApplicationMove where
  | operation (label : WorldLabel)
  | request (client : Nat) (request : Request) (calls : List ReportEvent) (result : Option Bool)

inductive ApplicationStep (cfg : Config) (codes : Codes) :
    Application → ApplicationMove → Application → Prop
  | operation {s : Application} {l : WorldLabel} {w : World} : WorldStep cfg s.world l w →
      ApplicationStep cfg codes s (.operation l) { s with world := w }
  | request {s : Application} (client : Nat) (request : Request) {calls : List ReportEvent}
      {result : Option Bool} {r : Reporter} :
      Exec (request.body cfg codes) (s.reporter client) calls (.ok result) r →
      ApplicationStep cfg codes s (.request client request calls result)
        ⟨{ s.world with clients := Function.update s.world.clients client r.self },
          Function.update s.errorCb client r.errorCb⟩

/-- The calls of an error, with the callback that is attached. -/
def IsErrorReport (error : String) (errorCode : Int32) (calls : List ReportEvent) :
    Option AppCallback → Prop
  | some cb => calls = [⟨.report (.errorCb cb errorCode error), ()⟩]
  | none => ∃ details : String, calls =
      [⟨.report (.printf ("\n[SMCC] Error occurred : " ++ error ++ "\n")), ()⟩,
        ⟨.report (.printf ("[SMCC] Error code : " ++ toString errorCode.toInt ++ "\n")), ()⟩,
        ⟨.errorDescription, details⟩,
        ⟨.report (.printf ("[SMCC] Error details : " ++ details ++ "\n")), ()⟩]

/-- The calls and the result of a request, with the callback and the flags it finds. -/
def Request.Answered (cfg : Config) (codes : Codes) (errorCb : Option AppCallback)
    (registered registerCalled : Bool) (calls : List ReportEvent) (result : Option Bool) :
    Request → Prop
  | error errorCode => result = none ∧
      IsErrorReport (errorText codes cfg.supportUpdate errorCode) errorCode calls errorCb
  | onErrorCb _ => result = none ∧ calls = []
  | isClientRegistered => result = some registered ∧ calls = []
  | isRegisterCalled => result = some registerCalled ∧ calls = []
  | close => result = none ∧ calls = [⟨.report .close, ()⟩]
  | registerUpdate => result = none ∧ calls = [⟨.report .registerUpdate, ()⟩]

/-- What a request leaves in `_error_cb`. -/
def Request.attach (errorCb : Option AppCallback) : Request → Option AppCallback
  | onErrorCb cb => cb
  | _ => errorCb

section
variable {cfg : Config} {codes : Codes} {r r' : Reporter} {calls : List ReportEvent}
  {result : Option Bool} {request : Request}

theorem exec_report_bind {A : Type} {o : Except Fault A} {c : Report} {next : Unit → ReportM A} :
    Exec (report c >>= next) r calls o r' ↔
      ∃ rest, calls = ⟨.report c, ()⟩ :: rest ∧ Exec (next ()) r rest o r' := by
  refine exec_call.trans ⟨?_, ?_⟩
  · rintro ⟨_, rest, rfl, h⟩; exact ⟨rest, rfl, h⟩
  · rintro ⟨rest, rfl, h⟩; exact ⟨(), rest, rfl, h⟩

theorem exec_report {o : Except Fault Unit} {c : Report} :
    Exec (report c) r calls o r' ↔ calls = [⟨.report c, ()⟩] ∧ o = .ok () ∧ r' = r := by
  refine exec_perform.trans ⟨?_, ?_⟩
  · rintro ⟨_, rfl, rfl, rfl⟩; exact ⟨rfl, rfl, rfl⟩
  · rintro ⟨rfl, rfl, rfl⟩; exact ⟨(), rfl, rfl, rfl⟩

theorem exec_errorDescription_bind {A : Type} {o : Except Fault A} {next : String → ReportM A} :
    Exec (errorDescription >>= next) r calls o r' ↔ ∃ (details : String) (rest : List ReportEvent),
      calls = ⟨.errorDescription, details⟩ :: rest ∧ Exec (next details) r rest o r' := exec_call

theorem exec_error {errorCode : Int32} :
    Exec (SimpleMbedCloudClient.error cfg codes errorCode) r calls (.ok ()) r' ↔
      r' = r ∧ IsErrorReport (errorText codes cfg.supportUpdate errorCode) errorCode calls
        r.errorCb := by
  cases hcb : r.errorCb with
  | none =>
    simp only [SimpleMbedCloudClient.error, exec_get_bind, hcb, exec_report_bind,
      exec_errorDescription_bind, exec_report, IsErrorReport]
    grind
  | some cb =>
    simp only [SimpleMbedCloudClient.error, exec_get_bind, hcb, exec_report, IsErrorReport]
    grind

theorem Request.spec (h : Exec (request.body cfg codes) r calls (.ok result) r') :
    r' = { r with errorCb := request.attach r.errorCb } ∧
      request.Answered cfg codes r.errorCb r.self.registered r.self.registerCalled calls
        result := by
  have hnone {p : ReportM Unit} (h : Exec (do p; return none) r calls (.ok result) r') :
      result = none ∧ Exec p r calls (.ok ()) r' := by
    obtain ⟨o, ho, hp⟩ := exec_bind_pure.mp h
    cases o with
    | error => cases ho
    | ok => exact ⟨Except.ok.inj ho, hp⟩
  cases request with
  | error errorCode =>
    obtain ⟨hresult, h⟩ := hnone h
    obtain ⟨rfl, hcalls⟩ := exec_error.mp h
    exact ⟨rfl, hresult, hcalls⟩
  | onErrorCb cb =>
    obtain ⟨hresult, h⟩ := hnone h
    obtain ⟨hcalls, -, rfl⟩ := exec_update.mp h
    exact ⟨rfl, hresult, hcalls⟩
  | isClientRegistered =>
    change Exec (.read fun r => .ret (some r.self.registered)) r calls (.ok result) r' at h
    rw [exec_read, exec_ret] at h
    obtain ⟨hcalls, hresult, rfl⟩ := h
    exact ⟨rfl, Except.ok.inj hresult, hcalls⟩
  | isRegisterCalled =>
    change Exec (.read fun r => .ret (some r.self.registerCalled)) r calls (.ok result) r' at h
    rw [exec_read, exec_ret] at h
    obtain ⟨hcalls, hresult, rfl⟩ := h
    exact ⟨rfl, Except.ok.inj hresult, hcalls⟩
  | close | registerUpdate =>
    obtain ⟨hresult, h⟩ := hnone h
    obtain ⟨hcalls, -, rfl⟩ := exec_report.mp h
    exact ⟨rfl, hresult, hcalls⟩

end

/-! ## Histories -/

def operations (moves : List ApplicationMove) : List WorldLabel :=
  moves.filterMap fun
    | .operation l => some l
    | .request .. => none

/-- The operations of one client. -/
def operationsOf (client : Nat) (moves : List ApplicationMove) : List Label :=
  (stepsOf client (operations moves)).map (·.step)

/-- The callback that was attached last. -/
def errorCallback (client : Nat) (moves : List ApplicationMove) : Option AppCallback :=
  moves.foldl (fun errorCb move => match move with
    | .request other request _ _ => if other = client then request.attach errorCb else errorCb
    | .operation _ => errorCb) none

/-- What an operation leaves in `_registered`. -/
def Operation.mark (registered : Bool) : Operation → Bool
  | clientRegistered => true
  | clientUnregistered => false
  | _ => registered

/-- Whether the last event of the cloud client was the registered one. -/
def registeredLast (labels : List Label) : Bool :=
  labels.foldl (fun registered l => l.op.mark registered) false

/-! ## Every run -/

section
variable {cfg : Config} {codes : Codes} {c c' : Context} {l : Label}

theorem registerResources_registered {m : MbedClient} {todo i : Nat} {d : MccResourceDef}
    {tr : List CloudEvent} (h : Exec (registerResources m todo i d) c tr (.ok ()) c') :
    c'.self.registered = c.self.registered :=
  registerResources_ok (fun _ u => u.self.registered = c.self.registered) h rfl
    fun _ _ _ _ hinv hit => by cases hit; exact hinv

theorem callRegister_registered {tr : List CloudEvent} {o : Except Fault Bool}
    (h : Exec (callRegister cfg) c tr o c') : c'.self.registered = c.self.registered := by
  rcases exec_callRegister.mp h with ⟨-, -, -, rfl⟩ | ⟨-, setup, -, -, rfl⟩ <;> rfl

/-- Only the two events of the cloud client touch the flag. -/
theorem Step.registered (h : Step cfg c l c') :
    c'.self.registered = l.op.mark c.self.registered := by
  have hspec := h.spec
  obtain ⟨op, tr, result⟩ := l
  cases op with
  | clientRegistered =>
    obtain ⟨reply, -, rfl⟩ := hspec
    rfl
  | callRegister =>
    obtain ⟨b, -, hexec⟩ := hspec
    exact callRegister_registered hexec
  | registerAndConnect memory =>
    obtain ⟨b, -, hexec⟩ := hspec
    rcases exec_registerAndConnect.mp hexec with
      ⟨-, -, -, rfl⟩ | ⟨-, ⟨front, mid, back, -, hloop, hcall⟩ | ⟨fault, hfault, -⟩⟩
    · rfl
    · have hregistered := registerResources_registered hloop
      exact (callRegister_registered hcall).trans hregistered
    · cases hfault
  | changeResource i change =>
    obtain ⟨-, r, -, rfl⟩ := hspec
    rfl
  | cloudWrite i value =>
    obtain ⟨-, r, res, -, -, rfl⟩ := hspec
    rfl
  | _ =>
    obtain ⟨-, rfl⟩ := hspec
    rfl

end

section
variable {cfg : Config} {codes : Codes} {w : World} {s s' : Application} {l : WorldLabel}
  {moves : List ApplicationMove} {move : ApplicationMove} {client other : Nat}

@[simp] theorem operations_append (moves more : List ApplicationMove) :
    operations (moves ++ more) = operations moves ++ operations more :=
  List.filterMap_append

theorem operationsOf_operation : operationsOf client (moves ++ [.operation l]) =
    operationsOf client moves ++ if l.client = client then [l.step] else [] := by
  by_cases h : l.client = client <;> simp [operationsOf, operations, stepsOf, h]

theorem operationsOf_request {request : Request} {calls : List ReportEvent} {result : Option Bool} :
    operationsOf client (moves ++ [.request other request calls result]) =
      operationsOf client moves := by
  simp [operationsOf, operations, stepsOf]

/-- What a client holds is what its history says. -/
structure Remembers (s : Application) (moves : List ApplicationMove) (client : Nat) : Prop where
  errorCb : s.errorCb client = errorCallback client moves
  registered : (s.world.clients client).registered = registeredLast (operationsOf client moves)
  flagged : Flagged (operationsOf client moves) (s.world.context client)

theorem Remembers.step (h : Remembers s moves client)
    (hstep : ApplicationStep cfg codes s move s') : Remembers s' (moves ++ [move]) client := by
  cases hstep with
  | @operation l w hworld =>
    obtain ⟨-, c, hexec, rfl⟩ := hworld
    refine ⟨?_, ?_, ?_⟩
    · rw [errorCallback, List.foldl_append]
      exact h.errorCb
    · rw [operationsOf_operation]
      by_cases hclient : l.client = client
      · subst hclient
        rw [if_pos rfl, registeredLast, List.foldl_append]
        have hregistered := hexec.registered
        simpa [World.put, World.context, h.registered, registeredLast] using hregistered
      · rw [if_neg hclient, List.append_nil, ← h.registered]
        simp [World.put, Function.update_of_ne (Ne.symm hclient)]
    · rw [operationsOf_operation]
      by_cases hclient : l.client = client
      · subst hclient
        rw [if_pos rfl]
        have hflagged := h.flagged.step hexec
        exact ⟨by simpa [World.put, World.context] using hflagged.called, hflagged.single⟩
      · rw [if_neg hclient, List.append_nil]
        refine ⟨?_, h.flagged.single⟩
        rw [← h.flagged.called]
        simp [World.put, World.context, Function.update_of_ne (Ne.symm hclient)]
  | @request other request calls result r hexec =>
    obtain ⟨rfl, -⟩ := request.spec hexec
    have hsame : Function.update s.world.clients other (s.world.clients other) = s.world.clients :=
      Function.update_eq_self ..
    refine ⟨?_, ?_, ?_⟩
    · rw [errorCallback, List.foldl_append]
      by_cases hclient : other = client
      · subst hclient
        simp [Application.reporter, h.errorCb, errorCallback]
      · simp [Function.update_of_ne (Ne.symm hclient), h.errorCb, errorCallback, hclient]
    · rw [operationsOf_request, ← h.registered]
      simp [Application.reporter]
    · rw [operationsOf_request]
      refine ⟨?_, h.flagged.single⟩
      rw [← h.flagged.called]
      simp [Application.reporter, World.context]

theorem remembers_of_run (hw : w.Fresh)
    (h : Run (ApplicationStep cfg codes) { world := w } moves s) (client : Nat) :
    Remembers s moves client := by
  induction h with
  | refl =>
    have hself : (w.context client).self = {} := congrFun hw client
    refine ⟨rfl, ?_, ?_, ?_⟩
    · simp [congrFun hw client, operationsOf, operations, stepsOf, registeredLast]
    · simp [operationsOf, operations, stepsOf, hself]
    · simp [operationsOf, operations, stepsOf]
  | snoc _ hstep ih => exact ih.step hstep

/-- A request is answered from the history of its client, and no operation notices it. -/
theorem answered_of_run (hw : w.Fresh)
    (h : Run (ApplicationStep cfg codes) { world := w } moves s) :
    Run (WorldStep cfg) w (operations moves) s.world ∧
      ∀ before client request calls result later,
        moves = before ++ .request client request calls result :: later →
        ∃ called, (called = true ↔ ∃ setup, Pending setup (operationsOf client before)) ∧
          request.Answered cfg codes (errorCallback client before)
            (registeredLast (operationsOf client before)) called calls result := by
  constructor
  · induction h with
    | refl => exact .refl
    | snoc _ hstep ih =>
      rw [operations_append]
      cases hstep with
      | operation hop => exact ih.snoc hop
      | request _ _ hexec =>
        obtain ⟨rfl, -⟩ := Request.spec hexec
        simpa [operations, Application.reporter] using ih
  · intro before client request calls result later hsplit
    obtain ⟨t, t', hbefore, hstep, -⟩ := h.cut hsplit
    have hknown := remembers_of_run hw hbefore client
    cases hstep with
    | request _ _ hexec =>
      obtain ⟨-, hanswer⟩ := request.spec hexec
      refine ⟨(t.world.clients client).registerCalled, ?_, ?_⟩
      · have hcalled := hknown.flagged.called
        rw [show (t.world.context client).self = t.world.clients client from rfl] at hcalled
        rw [hcalled, Bool.exists_bool, or_comm]
      · rw [← hknown.errorCb, ← hknown.registered]
        exact hanswer

end

/-- The enumerations, counted in the order of the cases. -/
def Codes.counted : Codes where
  error e := .ofNat (((errorCases true).map (·.1)).idxOf e)
  status s := (statusCases.map (·.1)).idxOf s
  error_injective := by
    refine Function.LeftInverse.injective (g := fun n =>
      ((errorCases true).map (·.1)).getD n.toInt.toNat .connectErrorNone) fun e => ?_
    cases e <;> rfl
  status_injective := by
    refine Function.LeftInverse.injective
      (g := fun n => (statusCases.map (·.1)).getD n .init) fun s => ?_
    cases s <;> rfl

/-- One client attaches a callback and is told of an error; the other one prints it. -/
theorem answered_of_run_timeout : ∃ moves s calls details,
    Run (ApplicationStep .reference .counted) {} moves s ∧
    moves = [.request 0 (.onErrorCb (some ⟨7⟩)) [] none, .request 0 (.error 5) calls none,
      .request 1 (.error 5) details none] ∧
    calls = [⟨.report (.errorCb ⟨7⟩ 5 "MbedCloudClient::ConnectTimeout"), ()⟩] ∧
    ∃ text : String, (⟨.errorDescription, text⟩ : ReportEvent) ∈ details := by
  let answer : List ReportEvent → (c : ReportCall) → c.Reply
    | _, .report _ => ()
    | _, .errorDescription => "timed out"
  have hattach : Exec (Request.body .reference .counted (.onErrorCb (some ⟨7⟩)))
      (Application.reporter {} 0) [] (.ok none) ⟨{}, some ⟨7⟩⟩ := .modify (.ret none _)
  have hfirst := Run.single (ApplicationStep.request 0 (.onErrorCb _) hattach)
  have hsecond := hfirst.snoc (.request 0 (.error 5) (exec_of_run answer rfl))
  have hrun := hsecond.snoc (.request 1 (.error 5) (exec_of_run answer rfl))
  have hfresh : World.Fresh {} := rfl
  have hanswered := (answered_of_run hfresh hrun).2
  obtain ⟨-, -, -, hcalls⟩ := hanswered [_] 0 (.error 5) _ none [_] rfl
  obtain ⟨-, -, -, text, hdetails⟩ := hanswered [_, _] 1 (.error 5) _ none [] rfl
  refine ⟨_, _, _, _, hrun, rfl, hcalls, text, ?_⟩
  rw [hdetails]
  simp

end SimpleCloudClient
