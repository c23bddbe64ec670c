import SimpleCloudClient.Client.Basic

/-!
# The authorization of updates

`update_authorize` of `update-helper.cpp`, the handler that `call_register` installs. It is told
what is requested but not by which client: it answers the client in the static variable `_client`,
which `update_helper_set_cloud_client` sets.
-/
namespace SimpleCloudClient.Update
open Procedure

/-- `MbedCloudClient::UpdateRequestDownload` and `UpdateRequestInstall`, two cases of a `switch`. -/
structure Requests where
  download : Int32
  install : Int32
  distinct : download ≠ install

inductive HelperCall where
  | printf (text : String)
  | updateAuthorize (client : Nat) (request : Int32)
  deriving DecidableEq, Repr

abbrev HelperEvent := Event fun _ : HelperCall => Unit

/-- The state is the static variable `_client`. -/
abbrev HelperM := Proc (Option Nat) HelperCall (fun _ => Unit) Fault

/-- A case of the `switch`: the request is announced and passed back. -/
def grant (text : String) (request : Int32) : HelperM Unit := do
  perform (.printf text)
  perform (.printf "Authorization granted\r\n")
  let client ← get
  let client ← deref .nullPointer client
  perform (.updateAuthorize client request)

def updateAuthorize (requests : Requests) (request : Int32) : HelperM Unit :=
  if request = requests.download then
    grant "Firmware download requested\r\n" requests.download
  else if request = requests.install then
    grant "Firmware install requested\r\n" requests.install
  else perform (.printf "Error - unknown request\r\n")

def Requests.Known (requests : Requests) (request : Int32) : Prop :=
  request = requests.download ∨ request = requests.install

instance (requests : Requests) (request : Int32) : Decidable (requests.Known request) :=
  inferInstanceAs (Decidable (_ ∨ _))

variable {requests : Requests} {request : Int32}

theorem updateAuthorize_known (h : requests.Known request) :
    ∃ text, updateAuthorize requests request = grant text request := by
  rcases h with rfl | rfl
  · exact ⟨_, if_pos rfl⟩
  · exact ⟨_, (if_neg requests.distinct.symm).trans (if_pos rfl)⟩

theorem updateAuthorize_unknown (h : ¬requests.Known request) :
    updateAuthorize requests request = perform (.printf "Error - unknown request\r\n") := by
  obtain ⟨hdownload, hinstall⟩ := not_or.mp h
  exact (if_neg hdownload).trans (if_neg hinstall)

/-! ## The rest of a call -/

/-- The client and the request of a call that grants. -/
def granted : HelperEvent → Option (Nat × Int32)
  | ⟨.updateAuthorize client request, _⟩ => some (client, request)
  | ⟨.printf _, _⟩ => none

/-- What is left of the handler, with the client that it has read and the grants it has made. -/
inductive Rest (requests : Requests) (request : Int32) :
    Option Nat → List (Nat × Int32) → HelperM Unit → Prop where
  | announce {seen : Option Nat} {text : String} (known : requests.Known request) :
      Rest requests request seen [] (grant text request)
  | confirm {seen : Option Nat} (known : requests.Known request) :
      Rest requests request seen [] (do
        perform (.printf "Authorization granted\r\n")
        let client ← get
        let client ← deref .nullPointer client
        perform (.updateAuthorize client request))
  | look {seen : Option Nat} (known : requests.Known request) :
      Rest requests request seen [] (do
        let client ← get
        let client ← deref .nullPointer client
        perform (.updateAuthorize client request))
  | answer {client : Nat} (known : requests.Known request) :
      Rest requests request (some client) [] (perform (.updateAuthorize client request))
  | answered {client : Nat} (known : requests.Known request) :
      Rest requests request (some client) [(client, request)] (.ret ())
  | refuse {seen : Option Nat} (unknown : ¬requests.Known request) :
      Rest requests request seen [] (perform (.printf "Error - unknown request\r\n"))
  | refused {seen : Option Nat} (unknown : ¬requests.Known request) :
      Rest requests request seen [] (.ret ())

variable {seen : Option Nat} {grants : List (Nat × Int32)} {p q : HelperM Unit}

theorem rest_updateAuthorize :
    Rest requests request seen [] (updateAuthorize requests request) := by
  by_cases hknown : requests.Known request
  · obtain ⟨text, htext⟩ := updateAuthorize_known hknown
    rw [htext]
    exact .announce hknown
  · rw [updateAuthorize_unknown hknown]
    exact .refuse hknown

/-- The handler looks at `_client` once, before it grants, and grants what it saw. -/
theorem Rest.step (h : Rest requests request seen grants p) {client : Nat} {t : Option Nat}
    {call : Option HelperEvent} (hstep : Procedure.Step (p, some client) call (q, t)) :
    t = some client ∧ Rest requests request (if call = none then some client else seen)
      (grants ++ (call.bind granted).toList) q := by
  cases h with
  | announce known =>
    cases hstep
    exact ⟨rfl, .confirm known⟩
  | confirm known =>
    cases hstep
    exact ⟨rfl, .look known⟩
  | look known =>
    cases hstep
    exact ⟨rfl, .answer known⟩
  | answer known =>
    cases hstep
    exact ⟨rfl, .answered known⟩
  | answered | refused => cases hstep
  | refuse unknown =>
    cases hstep
    exact ⟨rfl, .refused unknown⟩

/-- With a client to answer, no part of the handler is a fault. -/
theorem Rest.proceeds (h : Rest requests request seen grants p) (client : Nat) :
    p = .ret () ∨ ∃ call q, Procedure.Step (p, some client) call (q, some client) := by
  cases h with
  | announce | confirm | answer | refuse => exact .inr ⟨_, _, .call _ _ _ ()⟩
  | look => exact .inr ⟨_, _, .read _ _⟩
  | answered | refused => exact .inl rfl

/-- A handler that has ended has granted a request that it knows once, to the client it saw. -/
theorem Rest.of_ret (h : Rest requests request seen grants (.ret ())) :
    if requests.Known request then ∃ client, seen = some client ∧ grants = [(client, request)]
    else grants = [] := by
  cases h with
  | answered known => rw [if_pos known]; exact ⟨_, rfl, rfl⟩
  | refused unknown => rw [if_neg unknown]

end SimpleCloudClient.Update
