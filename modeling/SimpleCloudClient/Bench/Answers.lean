import SimpleCloudClient.Bench.Host
import SimpleCloudClient.Library.Threads

/-!
# What the host answers

Each callback has one specification: which messages it sends, on what grounds, and what it has
sent by its end. The grounds are the request, the state in which the callback started, and the
replies that it has got from the cloud. That state is what the requests before have left behind.
-/
namespace SimpleCloudClient.Bench
open Procedure

/-- The cloud has answered the request with this value. -/
def Got (past : List HostEvent) (request : CloudRequest) (value : List UInt8) : Prop :=
  (⟨.value request, value⟩ : HostEvent) ∈ past

/-- The cloud has carried out the request. -/
def Did (past : List HostEvent) (request : CloudRequest) : Prop :=
  (⟨.isDone request, true⟩ : HostEvent) ∈ past

/-- The directory has answered whether the device is registered, or not at all. -/
def LookedUp (past : List HostEvent) (name : List UInt8) (found : Option Bool) : Prop :=
  (⟨.getDevice name, found⟩ : HostEvent) ∈ past

/-- The message is sent. -/
def sending (m : Message) : HostEvent := ⟨.sendKv m, ()⟩

/-- At the last look it had not carried it out, and nothing but messages has followed. -/
def Missed (past : List HostEvent) (request : CloudRequest) : Prop :=
  ∃ front back, past = front ++ ⟨.isDone request, false⟩ :: back ∧ ∀ e ∈ back, ∃ m, e = sending m

/-- The requests to the cloud that this request leads to. -/
def Consults (r : Message) (h₀ : SDKTests) : CloudRequest → Prop
  | .getResourceValue deviceID path => (r.key = .verifyLwm2mGetTest ∨ r.key = .verifyLwm2mSetTest ∨
      r.key = .verifyLwm2mPutTest) ∧ deviceID = h₀.deviceID ∧ path = r.value
  | .setResourceValue deviceID path _ =>
      r.key = .verifyLwm2mPutTest ∧ deviceID = h₀.deviceID ∧ path = r.value
  | .executeResource deviceID path =>
      r.key = .verifyLwm2mPostTest ∧ deviceID = h₀.deviceID ∧ path = r.value

def Sent (past : List HostEvent) (key : Key) (value : List UInt8) : Prop :=
  sending ⟨key, value⟩ ∈ past

/-- The command that starts the update campaign has been launched. -/
def Opened (past : List HostEvent) : Prop := (⟨.popen, true⟩ : HostEvent) ∈ past

/-- The grounds on which a message answers a request. -/
def Justified (r : Message) (h₀ : SDKTests) (past : List HostEvent) (m : Message) : Prop :=
  match m.key with
  | .sync => r.key = .deviceBooted ∧ m.value = number 0
  | .iteration => (r.key = .deviceReady ∧ h₀.bootCycles < 5 ∨
      r.key = .spdmcReadyChk ∧ h₀.firmwareSent = false ∨ r.key = .firmwareUpdate) ∧
      m.value = number (h₀.iteration + if r.key.advances then 1 else 0 : Nat)
  | .reset => r.key = .testAdvance ∧ m.value = number 0
  | .registered => r.key = .verifyRegistration ∧ ∃ found, LookedUp past r.value found ∧
      m.value = number (if found = some true then 1 else 0)
  | .verified => r.key = .verifyIdentity ∧
      m.value = number (if h₀.deviceID = some r.value then 1 else 0)
  | .getValue => r.key = .verifyLwm2mGetTest ∧
      Got past (.getResourceValue h₀.deviceID r.value) m.value
  | .setValue => r.key = .verifyLwm2mSetTest ∧
      Got past (.getResourceValue h₀.deviceID r.value) m.value
  | .resSet => r.key = .verifyLwm2mPutTest ∧ ∃ text n, pyInt text = some n ∧
      Got past (.getResourceValue h₀.deviceID r.value) text ∧
      Did past (.setResourceValue h₀.deviceID r.value (n + 5)) ∧ m.value = number (n + 5)
  | .postTestExecuted =>
      r.key = .verifyLwm2mPostTestResult ∧ h₀.postTimeout = false ∧ m.value = number 0
  | .timeout => (∃ request, Consults r h₀ request ∧ Missed past request) ∧ m.value = number 0
  | .firmwareSent => r.key = .firmwarePrepare ∧ Opened past ∧ m.value = number 1
  | _ => False

/-- Every message has been sent on good grounds. -/
def Grounded (r : Message) (h₀ : SDKTests) (past : List HostEvent) : Prop :=
  ∀ front m back, past = front ++ sending m :: back → Justified r h₀ front m

/-- The test has been ended as failed. -/
def Failed (past : List HostEvent) : Prop := (⟨.notifyComplete false, ()⟩ : HostEvent) ∈ past

/-- What a callback has done by its end. -/
def Concluded (r : Message) (h₀ : SDKTests) (past : List HostEvent) : Prop :=
  match r.key with
  | .deviceBooted => ∃ value, Sent past .sync value
  | .deviceReady => if h₀.bootCycles < 5 then ∃ value, Sent past .iteration value else past = []
  | .testAdvance => ∃ value, Sent past .reset value
  | .testFailed => Failed past
  | .verifyRegistration => ∃ value, Sent past .registered value
  | .verifyIdentity => ∃ value, Sent past .verified value
  | .verifyLwm2mGetTest => ∃ value, Sent past .getValue value ∨ Sent past .timeout value
  | .verifyLwm2mSetTest => ∃ value, Sent past .setValue value ∨ Sent past .timeout value
  | .verifyLwm2mPutTest => ∃ value, Sent past .resSet value ∨ Sent past .timeout value
  | .verifyLwm2mPostTest => (∃ value, Sent past .timeout value) ∨
      Did past (.executeResource h₀.deviceID r.value)
  | .verifyLwm2mPostTestResult =>
      if h₀.postTimeout then past = [] else ∃ value, Sent past .postTestExecuted value
  | .spdmcReadyChk => if h₀.firmwareSent then Failed past else ∃ value, Sent past .iteration value
  | .firmwarePrepare =>
      Opened past ∧ (∃ value, Sent past .firmwareSent value) ∨ ¬Opened past ∧ Failed past
  | .firmwareUpdate => ∃ value, Sent past .iteration value
  -- no callback
  | _ => past = []

/-! ## What the requests leave behind -/

/-- A request that the host has taken, and what its callback has done so far. -/
structure Turn where
  request : Message
  events : List HostEvent

/-- The device has been told that the POST has not come through in time. -/
def Turn.TimedOut (turn : Turn) : Prop :=
  turn.request.key = .verifyLwm2mPostTest ∧ ∃ value, Sent turn.events .timeout value

/-- The campaign has been launched. -/
def Turn.Opens (turn : Turn) : Prop := turn.request.key = .firmwarePrepare ∧ Opened turn.events

/-- What the host knows after these turns. -/
structure Learned (past : List Turn) (h : SDKTests) : Prop where
  /-- The name from the last request to verify a registration. -/
  deviceID : h.deviceID =
    (past.reverse.find? (·.request.key = .verifyRegistration)).map (·.request.value)
  iteration : h.iteration = past.countP (·.request.key.advances)
  bootCycles : h.bootCycles = past.countP (·.request.key = .deviceReady)
  postTimeout : h.postTimeout = true ↔ ∃ turn ∈ past, turn.TimedOut
  firmwareSent : h.firmwareSent = true ↔ ∃ turn ∈ past, turn.Opens

/-- What one turn adds to it. -/
structure Learns (turn : Turn) (h₀ h : SDKTests) : Prop where
  deviceID : h.deviceID =
    if turn.request.key = .verifyRegistration then some turn.request.value else h₀.deviceID
  iteration : h.iteration = h₀.iteration + if turn.request.key.advances then 1 else 0
  bootCycles : h.bootCycles = h₀.bootCycles + if turn.request.key = .deviceReady then 1 else 0
  postTimeout : h.postTimeout = true ↔ h₀.postTimeout = true ∨ turn.TimedOut
  firmwareSent : h.firmwareSent = true ↔ h₀.firmwareSent = true ∨ turn.Opens

theorem learned_nil : Learned [] {} := by
  constructor <;> simp

theorem Learned.snoc {past : List Turn} {turn : Turn} {h₀ h : SDKTests} (hpast : Learned past h₀)
    (hturn : Learns turn h₀ h) : Learned (past ++ [turn]) h where
  deviceID := by
    rw [hturn.deviceID, hpast.deviceID, List.reverse_append, List.reverse_singleton,
      List.singleton_append, List.find?_cons]
    by_cases hkey : turn.request.key = .verifyRegistration <;> simp [hkey]
  iteration := by
    rw [hturn.iteration, hpast.iteration, List.countP_append, List.countP_singleton]
  bootCycles := by
    simp [hturn.bootCycles, hpast.bootCycles, List.countP_append, List.countP_singleton]
  postTimeout := by
    simp [hturn.postTimeout, hpast.postTimeout, or_and_right, exists_or]
  firmwareSent := by
    simp [hturn.firmwareSent, hpast.firmwareSent, or_and_right, exists_or]

/-- What later callbacks ask of the state. -/
def SDKTests.known (h : SDKTests) : Option (List UInt8) × Nat × Nat × Bool × Bool :=
  (h.deviceID, h.iteration, h.bootCycles, h.postTimeout, h.firmwareSent)

theorem SDKTests.known_eq_iff {h h' : SDKTests} : h'.known = h.known ↔
    h'.deviceID = h.deviceID ∧ h'.iteration = h.iteration ∧ h'.bootCycles = h.bootCycles ∧
      h'.postTimeout = h.postTimeout ∧ h'.firmwareSent = h.firmwareSent := by
  simp [known]

/-- The requests that tell the host something. -/
def tellingKeys : List Key :=
  [.verifyRegistration, .testAdvance, .firmwareUpdate, .deviceReady, .verifyLwm2mPostTest,
    .firmwarePrepare]

/-- All others leave what it knows alone. -/
theorem Learns.same {key : Key} {value : List UInt8} {past : List HostEvent} {h₀ h : SDKTests}
    (hkey : key ∉ tellingKeys) (hsame : h.known = h₀.known) :
    Learns ⟨⟨key, value⟩, past⟩ h₀ h := by
  obtain ⟨hid, hiteration, hcycles, hpost, hsent⟩ := SDKTests.known_eq_iff.mp hsame
  have hadvances : key.advances = false := by
    cases key <;> first | rfl | exact absurd (by decide) hkey
  simp only [tellingKeys, List.mem_cons, List.not_mem_nil, or_false, not_or] at hkey
  constructor <;> simp [hid, hiteration, hcycles, hpost, hsent, hkey, hadvances, Turn.TimedOut,
    Turn.Opens]

/-! ## The specification of a callback -/

/-- Every message is sent on good grounds, and only one callback launches a campaign. -/
def answering (r : Message) (h₀ : SDKTests) : Monitor HostEvent (List HostEvent) :=
  recording fun past e =>
    match e.1 with
    | .sendKv m => Justified r h₀ past m
    | .popen => r.key = .firmwarePrepare
    | _ => True

/-- What a callback guarantees at its end. -/
def Ends (r : Message) (h₀ : SDKTests) (h : SDKTests) (past : List HostEvent) : Prop :=
  Concluded r h₀ past ∧ Learns ⟨r, past⟩ h₀ h

/-- A callback that is running, with the state it started in and the events so far. -/
structure Serves (r : Message) (h₀ : SDKTests) (past : List HostEvent) (p : HostM Unit)
    (h : SDKTests) : Prop where
  spec : wp (answering r h₀) p (Returns fun _ => Ends r h₀) h past
  sent : Preserves (·.firmwareSent = true) p
  grounded : Grounded r h₀ past
  opened : Opened past → r.key = .firmwarePrepare

variable {r m : Message} {h₀ h h' : SDKTests} {past more : List HostEvent} {p q : HostM Unit}
  {call : Option HostEvent} {key : Key} {value : List UInt8}

@[simp] theorem answering_next {e : HostEvent} :
    (answering r h₀).next past e = past ++ [e] := rfl

/-- Only one call launches the campaign. -/
theorem opened_snoc {e : HostEvent} (he : e.1 ≠ .popen) : Opened (past ++ [e]) ↔ Opened past := by
  refine ⟨fun hmem => ?_, List.mem_append_left _⟩
  rcases List.mem_append.mp hmem with hold | hnew
  · exact hold
  · exact absurd (congrArg Sigma.fst (List.mem_singleton.mp hnew)).symm he

theorem grounded_nil : Grounded r h₀ [] := by
  intro front m back hpast
  exact absurd hpast (by simp)

theorem Grounded.snoc {e : HostEvent} (h : Grounded r h₀ past)
    (he : ∀ m, e = sending m → Justified r h₀ past m) : Grounded r h₀ (past ++ [e]) := by
  intro front m back hpast
  rcases List.eq_nil_or_concat back with rfl | ⟨back, last, rfl⟩
  · obtain ⟨rfl, hlast⟩ := List.append_inj' hpast rfl
    exact he m (List.singleton_inj.mp hlast)
  · have hfront : past ++ [e] = (front ++ sending m :: back) ++ [last] := by simpa using hpast
    obtain ⟨rfl, -⟩ := List.append_inj' hfront rfl
    exact h front m back rfl

/-- A step keeps the specification, and what it sends is justified. -/
theorem Serves.step (hs : Serves r h₀ past p h) (hstep : Procedure.Step (p, h) call (q, h')) :
    Serves r h₀ (past ++ call.toList) q h' ∧
      ∀ m, call = some ⟨.sendKv m, ()⟩ → Justified r h₀ past m := by
  obtain ⟨hsafe, hrest⟩ := wp_step hs.spec hstep
  refine ⟨⟨?_, (hs.sent.step hstep).1, ?_, fun hopened => ?_⟩, fun m hm => hsafe _ hm⟩
  · cases call with
    | none => simpa using hrest
    | some e => exact hrest
  · cases call with
    | none => simpa using hs.grounded
    | some e => exact hs.grounded.snoc fun m hm => hsafe (sending m) (congrArg some hm)
  · rcases List.mem_append.mp hopened with hold | hnew
    · exact hs.opened hold
    · exact hsafe ⟨.popen, true⟩ (Option.mem_toList.mp hnew)

theorem Serves.ends (hs : Serves r h₀ past (.ret ()) h) : Ends r h₀ h past := hs.spec

/-- It stays so while messages are sent. -/
theorem Justified.sent {m' : Message} (hj : Justified r h₀ past m) :
    Justified r h₀ (past ++ [sending m']) m := by
  have hsub : past ⊆ past ++ [sending m'] := List.subset_append_left ..
  obtain ⟨key, value⟩ := m
  cases key <;> first | exact hj | skip
  case registered =>
    obtain ⟨hr, found, hfound, hvalue⟩ := hj
    exact ⟨hr, found, hsub hfound, hvalue⟩
  case getValue => exact ⟨hj.1, hsub hj.2⟩
  case setValue => exact ⟨hj.1, hsub hj.2⟩
  case resSet =>
    obtain ⟨hr, text, n, hn, hgot, hdid, hvalue⟩ := hj
    exact ⟨hr, text, n, hn, hsub hgot, hsub hdid, hvalue⟩
  case firmwareSent => exact ⟨hj.1, hsub hj.2.1, hj.2.2⟩
  case timeout =>
    obtain ⟨⟨request, hr, front, back, rfl, hback⟩, hvalue⟩ := hj
    refine ⟨⟨request, hr, front, back ++ [sending m'], by simp, fun e he => ?_⟩, hvalue⟩
    rcases List.mem_append.mp he with hold | hnew
    · exact hback e hold
    · exact ⟨m', List.mem_singleton.mp hnew⟩

/-! ## The callbacks -/

section
variable {A : Type} {P : Unit → SDKTests → List HostEvent → Prop} {request : CloudRequest}
  {budget : Nat} {T : Except HostFault A → SDKTests → List HostEvent → Prop}

theorem wp_sendKv_bind {next : Unit → HostM A} (hj : Justified r h₀ past ⟨key, value⟩)
    (hnext : wp (answering r h₀) (next ()) T h (past ++ [⟨.sendKv ⟨key, value⟩, ()⟩])) :
    wp (answering r h₀) (sendKv key value >>= next) T h past :=
  fun _ => ⟨hj, hnext⟩

theorem wp_sendSafe (hj : Justified r h₀ past ⟨key, value⟩)
    (hP : ∀ more, past ⊆ more → Sent more key value → P () h more) :
    wp (answering r h₀) (SDKTests.sendSafe key value) (Returns P) h past := by
  refine wp_sendKv_bind hj (wp_sendKv_bind hj.sent (wp_sendKv_bind hj.sent.sent
    (wp_sendKv_bind hj.sent.sent.sent (wp_sendKv_bind hj.sent.sent.sent.sent (hP _ ?_ ?_)))))
  · simp
  · simp [Sent, sending]

/-- A request that has been missed times out. -/
theorem wp_sendTimeout (hmissed : Missed past request) (hrequest : Consults r h₀ request)
    (hP : ∀ more, (∃ value, Sent more .timeout value) → P () h more) :
    wp (answering r h₀) (SDKTests.sendSafe .timeout (number 0)) (Returns P) h past :=
  wp_sendSafe ⟨⟨request, hrequest, hmissed⟩, rfl⟩ fun more _ hsent => hP more ⟨_, hsent⟩

theorem wp_start_bind {next : Unit → HostM A}
    (hnext : wp (answering r h₀) (next ()) T h (past ++ [⟨.start request, ()⟩])) :
    wp (answering r h₀) (start request >>= next) T h past :=
  fun _ => ⟨trivial, hnext⟩

/-- Every message was sent before. -/
def Silent (past more : List HostEvent) : Prop := ∀ m, sending m ∈ more → sending m ∈ past

theorem silent_snoc {e : HostEvent} (he : ∀ m, e ≠ sending m) : Silent past (past ++ [e]) := by
  intro m hm
  rcases List.mem_append.mp hm with hold | hnew
  · exact hold
  · exact absurd (List.mem_singleton.mp hnew).symm (he m)

theorem Silent.trans {last : List HostEvent} (h : Silent past more) (h' : Silent more last) :
    Silent past last := fun m hm => h m (h' m hm)

/-- Waiting sends nothing, changes nothing and forgets nothing. -/
theorem wp_waitDone_bind {next : Nat → HostM A}
    (hnext : ∀ left more, past ⊆ more → Silent past more →
      wp (answering r h₀) (next left) T h more) :
    wp (answering r h₀) (SDKTests.waitDone request budget >>= next) T h past := by
  have hasked (reply : Bool) : Silent past (past ++ [⟨.isDone request, reply⟩]) :=
    silent_snoc fun m h => nomatch congrArg Sigma.fst h
  induction budget generalizing past with
  | zero =>
    exact fun reply => ⟨trivial, hnext _ _ (List.subset_append_left ..) (hasked reply)⟩
  | succ budget ih =>
    intro reply
    refine ⟨trivial, ?_⟩
    cases reply with
    | true => exact hnext _ _ (List.subset_append_left ..) (hasked true)
    | false =>
      have hsleep : Silent (past ++ [⟨.isDone request, false⟩])
          (past ++ [⟨.isDone request, false⟩] ++ [⟨.sleep, ()⟩]) :=
        silent_snoc fun m h => nomatch congrArg Sigma.fst h
      refine fun _ => ⟨trivial, ih (fun left more hsub hsilent => ?_) fun reply => ?_⟩
      · exact hnext left more (List.Subset.trans (List.subset_append_left ..)
          (List.Subset.trans (List.subset_append_left ..) hsub))
          (((hasked false).trans hsleep).trans hsilent)
      · exact silent_snoc fun m h => nomatch congrArg Sigma.fst h

theorem wp_isDone_bind {next : Bool → HostM A}
    (htrue : Did (past ++ [⟨.isDone request, true⟩]) request →
      wp (answering r h₀) (next true) T h (past ++ [⟨.isDone request, true⟩]))
    (hfalse : Missed (past ++ [⟨.isDone request, false⟩]) request →
      wp (answering r h₀) (next false) T h (past ++ [⟨.isDone request, false⟩])) :
    wp (answering r h₀) (isDone request >>= next) T h past := by
  intro reply
  refine ⟨trivial, ?_⟩
  cases reply with
  | true => exact htrue (List.mem_append_right _ (List.mem_singleton_self _))
  | false => exact hfalse ⟨past, [], rfl, nofun⟩

theorem wp_valueOf_bind {next : List UInt8 → HostM A}
    (hnext : ∀ text more, past ⊆ more → Got more request text →
      wp (answering r h₀) (next text) T h more) :
    wp (answering r h₀) (valueOf request >>= next) T h past :=
  fun text => ⟨trivial, hnext text _ (List.subset_append_left ..)
    (List.mem_append_right _ (List.mem_singleton_self _))⟩

end

/-- The specification of a callback. -/
def Meets (r : Message) (h₀ : SDKTests) (p : HostM Unit) : Prop :=
  wp (answering r h₀) p (Returns fun _ => Ends r h₀) h₀ []

theorem meets_deviceBooted : Meets ⟨.deviceBooted, value⟩ h SDKTests.deviceBooted :=
  wp_sendSafe ⟨rfl, rfl⟩ fun _ _ hsent => ⟨⟨_, hsent⟩, .same (by decide) rfl⟩

theorem meets_deviceReady : Meets ⟨.deviceReady, value⟩ h SDKTests.deviceReady := by
  have hlearns (past : List HostEvent) : Learns ⟨⟨.deviceReady, value⟩, past⟩ h
      { h with bootCycles := h.bootCycles + 1 } := by
    constructor <;> simp [Key.advances, Turn.TimedOut, Turn.Opens]
  unfold Meets SDKTests.deviceReady
  rw [wp_update_bind, wp_get_bind]
  refine wp_if (fun hcycles => ?_) fun hcycles => ?_
  · have hlt := Nat.lt_of_succ_le hcycles
    refine wp_sendSafe ⟨.inl ⟨rfl, hlt⟩, rfl⟩ fun _ _ hsent => ⟨?_, hlearns _⟩
    exact (if_pos hlt).mpr ⟨_, hsent⟩
  · exact ⟨(if_neg fun hlt => hcycles (Nat.succ_le_of_lt hlt)).mpr rfl, hlearns _⟩

theorem meets_testAdvance : Meets ⟨.testAdvance, value⟩ h SDKTests.testAdvance := by
  refine wp_sendSafe ⟨rfl, rfl⟩ fun _ past hsent => ⟨⟨_, hsent⟩, ?_⟩
  constructor <;> simp [Key.advances, Turn.TimedOut, Turn.Opens]

theorem meets_testFailed : Meets ⟨.testFailed, value⟩ h SDKTests.testFailed :=
  fun _ => ⟨trivial, List.mem_singleton_self _, .same (by decide) rfl⟩

theorem meets_verifyRegistration :
    Meets ⟨.verifyRegistration, value⟩ h (SDKTests.verifyRegistration value) := by
  have hlearns (past : List HostEvent) : Learns ⟨⟨.verifyRegistration, value⟩, past⟩ h
      { h with deviceID := some value } := by
    constructor <;> simp [Key.advances, Turn.TimedOut, Turn.Opens]
  intro found
  have hfound : LookedUp [⟨.getDevice value, found⟩] value found := List.mem_singleton_self _
  refine ⟨trivial, ?_⟩
  rcases found with _ | ⟨_ | _⟩ <;>
    exact wp_sendSafe ⟨rfl, _, hfound, rfl⟩ fun _ _ hsent => ⟨⟨_, hsent⟩, hlearns _⟩

theorem meets_verifyIdentity : Meets ⟨.verifyIdentity, value⟩ h (SDKTests.verifyIdentity value) :=
  wp_sendSafe ⟨rfl, rfl⟩ fun _ _ hsent => ⟨⟨_, hsent⟩, .same (by decide) rfl⟩

theorem meets_verifyLwm2mGet :
    Meets ⟨.verifyLwm2mGetTest, value⟩ h (SDKTests.verifyLwm2mGet value) := by
  have hend (past : List HostEvent) :
      wp (answering ⟨.verifyLwm2mGetTest, value⟩ h) (do
        if ← isDone (.getResourceValue h.deviceID value) then
          SDKTests.sendSafe .getValue (← valueOf (.getResourceValue h.deviceID value))
        else
          SDKTests.sendSafe .timeout (number 0))
        (Returns fun _ => Ends ⟨.verifyLwm2mGetTest, value⟩ h) h past := by
    refine wp_isDone_bind (fun _ => wp_valueOf_bind fun text more _ hgot => ?_) fun hmissed => ?_
    · exact wp_sendSafe ⟨rfl, hgot⟩ fun _ _ hsent => ⟨⟨_, .inl hsent⟩, .same (by decide) rfl⟩
    · exact wp_sendTimeout hmissed ⟨.inl rfl, rfl, rfl⟩
        fun _ hsent => ⟨hsent.imp fun _ => .inr, .same (by decide) rfl⟩
  refine wp_start_bind (wp_waitDone_bind fun _ _ _ _ =>
    wp_isDone_bind (fun _ => hend _) fun _ => ?_)
  exact wp_start_bind (wp_waitDone_bind fun _ _ _ _ => hend _)

theorem meets_verifyLwm2mSet :
    Meets ⟨.verifyLwm2mSetTest, value⟩ h (SDKTests.verifyLwm2mSet value) := by
  refine wp_start_bind (wp_waitDone_bind fun _ _ _ _ =>
    wp_isDone_bind (fun _ => ?_) fun hmissed => ?_)
  · exact wp_valueOf_bind fun text more _ hgot =>
      wp_sendSafe ⟨rfl, hgot⟩ fun _ _ hsent => ⟨⟨_, .inl hsent⟩, .same (by decide) rfl⟩
  · exact wp_sendTimeout hmissed ⟨.inr (.inl rfl), rfl, rfl⟩
      fun _ hsent => ⟨hsent.imp fun _ => .inr, .same (by decide) rfl⟩

theorem meets_verifyLwm2mPut :
    Meets ⟨.verifyLwm2mPutTest, value⟩ h (SDKTests.verifyLwm2mPut value) := by
  have htimeout {past : List HostEvent} {request : CloudRequest} (hmissed : Missed past request)
      (hrequest : Consults ⟨.verifyLwm2mPutTest, value⟩ h request) :
      wp (answering ⟨.verifyLwm2mPutTest, value⟩ h) (SDKTests.sendSafe .timeout (number 0))
        (Returns fun _ => Ends ⟨.verifyLwm2mPutTest, value⟩ h) h past :=
    wp_sendTimeout hmissed hrequest
      fun _ hsent => ⟨hsent.imp fun _ => .inr, .same (by decide) rfl⟩
  refine wp_start_bind (wp_waitDone_bind fun _ _ _ _ =>
    wp_isDone_bind (fun _ => ?_) fun hmissed => ?_)
  · refine wp_valueOf_bind fun text more _ hgot => ?_
    rw [wp_deref_bind]
    cases hn : pyInt text with
    | none => trivial
    | some n =>
      refine wp_start_bind (wp_waitDone_bind fun _ last hlast _ =>
        wp_isDone_bind (fun hdid => ?_) fun hmissed => htimeout hmissed ⟨rfl, rfl, rfl⟩)
      have hgot := List.Subset.trans (List.subset_append_left ..) hlast hgot
      exact wp_sendSafe ⟨rfl, text, n, hn, List.mem_append_left _ hgot, hdid, rfl⟩
        fun _ _ hsent => ⟨⟨_, .inl hsent⟩, .same (by decide) rfl⟩
  · exact wp_then (htimeout hmissed ⟨.inr (.inr rfl), rfl, rfl⟩) fun _ _ _ hdone => hdone

theorem meets_verifyLwm2mPost :
    Meets ⟨.verifyLwm2mPostTest, value⟩ h (SDKTests.verifyLwm2mPost value) := by
  let request := CloudRequest.executeResource h.deviceID value
  have hstart : Silent [] [⟨.start request, ()⟩] :=
    silent_snoc fun m h => nomatch congrArg Sigma.fst h
  refine wp_start_bind (wp_waitDone_bind fun _ more _ hsilent => wp_isDone_bind (fun hdid => ?_)
    fun hmissed => ?_)
  · have hdone : Silent more (more ++ [⟨.isDone request, true⟩]) :=
      silent_snoc fun m h => nomatch congrArg Sigma.fst h
    have hquiet := (hstart.trans hsilent).trans hdone
    refine ⟨.inr hdid, ?_⟩
    have hnone (value : List UInt8) (hsent : Sent _ .timeout value) : False :=
      List.not_mem_nil (hquiet _ hsent)
    constructor <;> simp [Key.advances, Turn.TimedOut, Turn.Opens]
    exact fun value hsent => (hnone value hsent).elim
  · have hsend : wp (answering ⟨.verifyLwm2mPostTest, value⟩ h)
        (SDKTests.sendSafe .timeout (number 0)) (Returns fun _ h' past =>
          (∃ value, Sent past .timeout value) ∧ h' = h) h (more ++ [⟨.isDone request, false⟩]) :=
      wp_sendTimeout hmissed ⟨rfl, rfl, rfl⟩ fun _ hsent => ⟨hsent, rfl⟩
    refine wp_then hsend ?_
    rintro _ _ past ⟨hsent, rfl⟩
    refine ⟨.inl hsent, ?_⟩
    constructor <;> simp [Key.advances, Turn.TimedOut, Turn.Opens, hsent]

theorem meets_verifyLwm2mPostResult :
    Meets ⟨.verifyLwm2mPostTestResult, value⟩ h SDKTests.verifyLwm2mPostResult := by
  unfold Meets SDKTests.verifyLwm2mPostResult
  rw [wp_get_bind]
  refine wp_if (fun htimeout => ?_) fun htimeout => ?_
  · have hfalse : h.postTimeout = false := by simpa using htimeout
    refine wp_sendSafe ⟨rfl, hfalse, rfl⟩ fun _ _ hsent => ⟨?_, .same (by decide) rfl⟩
    exact (if_neg (by simp [hfalse])).mpr ⟨_, hsent⟩
  · have htrue : h.postTimeout = true := by simpa using htimeout
    exact ⟨(if_pos htrue).mpr rfl, .same (by decide) rfl⟩

/-- Cleaning up sends nothing, launches nothing and leaves alone what the host knows. -/
theorem wp_cleanup_bind {A : Type} {next : Unit → HostM A}
    {T : Except HostFault A → SDKTests → List HostEvent → Prop}
    (hnext : ∀ h' more, h'.known = h.known → (Opened more → Opened past) →
      wp (answering r h₀) (next ()) T h' more) :
    wp (answering r h₀) (SDKTests.firmwareCampaignCleanup >>= next) T h past := by
  have hquiet : wp (answering r h₀) SDKTests.firmwareCampaignCleanup
      (fun o h' more => o = .ok () ∧ h'.known = h.known ∧ (Opened more → Opened past))
      h past := by
    unfold SDKTests.firmwareCampaignCleanup
    rw [wp_get_bind]
    refine wp_if (fun _ => fun _ => ⟨trivial, fun _ => ⟨trivial, ?_⟩⟩) fun _ => ⟨rfl, rfl, id⟩
    refine wp_if (fun _ reply => ⟨trivial, ?_⟩) fun _ => ⟨rfl, rfl, ?_⟩
    · cases reply <;> refine ⟨rfl, rfl, ?_⟩ <;> simp only [answering_next, opened_snoc, ne_eq,
        reduceCtorEq, not_false_eq_true, imp_self]
    · simp only [answering_next, opened_snoc, ne_eq, reduceCtorEq, not_false_eq_true, imp_self]
  refine wp_seq hquiet ?_ ?_
  · rintro _ h' more ⟨-, hsame, hopened⟩
    exact hnext h' more hsame hopened
  · rintro _ _ _ ⟨⟨⟩, -⟩

theorem meets_firmwareReady : Meets ⟨.spdmcReadyChk, value⟩ h SDKTests.firmwareReady := by
  unfold Meets SDKTests.firmwareReady
  rw [wp_get_bind]
  refine wp_if (fun hfirmware => ?_) fun hfirmware => ?_
  · refine wp_cleanup_bind fun h' more hsame _ _ => ⟨trivial, ?_, .same (by decide) hsame⟩
    exact (if_pos hfirmware).mpr (List.mem_append_right _ (List.mem_singleton_self _))
  · refine wp_sendSafe ⟨.inr (.inl ⟨rfl, by simpa using hfirmware⟩), rfl⟩
      fun _ _ hsent => ⟨?_, .same (by decide) rfl⟩
    exact (if_neg hfirmware).mpr ⟨_, hsent⟩

theorem meets_firmwarePrepare : Meets ⟨.firmwarePrepare, value⟩ h SDKTests.firmwarePrepare := by
  have hfail {past : List HostEvent} {h' : SDKTests} (hpast : ¬Opened past)
      (hsame : h'.known = h.known) :
      wp (answering ⟨.firmwarePrepare, value⟩ h) (notifyComplete false)
        (Returns fun _ => Ends ⟨.firmwarePrepare, value⟩ h) h' past := by
    obtain ⟨hid, hiteration, hcycles, hpost, hsent⟩ := SDKTests.known_eq_iff.mp hsame
    intro reply
    have hlast : ¬Opened (past ++ [⟨.notifyComplete false, reply⟩]) := fun hmem =>
      hpast ((opened_snoc (by simp)).mp hmem)
    refine ⟨trivial, .inr ⟨hlast, ?_⟩, ?_⟩
    · exact List.mem_append_right _ (List.mem_singleton_self _)
    · constructor <;> simp [hid, hiteration, hcycles, hpost, hsent, Key.advances, Turn.TimedOut,
        Turn.Opens, hlast]
  unfold Meets SDKTests.firmwarePrepare
  rw [wp_get_bind]
  refine wp_if (fun _ => hfail List.not_mem_nil rfl) fun _ => fun found => ⟨trivial, ?_⟩
  have hfound : ¬Opened [⟨.updateImageExists, found⟩] := fun hmem =>
    List.not_mem_nil ((opened_snoc (by simp)).mp hmem)
  refine wp_if (fun _ => hfail hfound rfl) fun _ => fun modified => ⟨trivial, ?_⟩
  have hmodified : ¬Opened [⟨.updateImageExists, found⟩, ⟨.modifyImage, modified⟩] := fun hmem =>
    hfound ((opened_snoc (by simp)).mp hmem)
  refine wp_if (fun _ => hfail hmodified rfl) fun _ => fun launched => ⟨rfl, ?_⟩
  cases launched with
  | false =>
    refine wp_cleanup_bind fun h' more hsame hopened => hfail (fun hmem => ?_) hsame
    rcases List.mem_append.mp (hopened hmem) with hold | hnew
    · exact hmodified hold
    · cases List.mem_singleton.mp hnew
  | true =>
    have hlaunched : Opened [⟨.updateImageExists, found⟩, ⟨.modifyImage, modified⟩,
        ⟨.popen, true⟩] := by simp [Opened]
    refine wp_sendSafe ⟨rfl, hlaunched, rfl⟩ fun more hsub hsent => ?_
    have hopened : Opened more := hsub hlaunched
    refine ⟨.inl ⟨hopened, _, hsent⟩, ?_⟩
    constructor <;> simp [Key.advances, Turn.TimedOut, Turn.Opens, hopened]

theorem meets_firmwareUpdate : Meets ⟨.firmwareUpdate, value⟩ h SDKTests.firmwareUpdate := by
  refine wp_cleanup_bind fun h' more hsame _ => ?_
  obtain ⟨hid, hiteration, hcycles, hpost, hfirmware⟩ := SDKTests.known_eq_iff.mp hsame
  rw [wp_update_bind, wp_get_bind]
  refine wp_sendSafe ⟨.inr (.inr rfl), ?_⟩ fun _ _ hsent => ⟨⟨_, hsent⟩, ?_⟩
  · rw [hiteration]
    rfl
  · constructor <;> simp [hid, hiteration, hcycles, hpost, hfirmware, Key.advances, Turn.TimedOut,
      Turn.Opens]

/-! ## What a callback leaves alone -/

theorem keeps_sendSafe {X : Type} {g : SDKTests → X} :
    Keeps g (SDKTests.sendSafe key value) := fun _ _ _ _ _ => trivial

theorem keeps_waitDone {X : Type} {g : SDKTests → X} {request : CloudRequest} {budget : Nat} :
    Keeps g (SDKTests.waitDone request budget) := by
  induction budget with
  | zero => exact fun _ => trivial
  | succ budget ih =>
    intro reply
    cases reply with
    | true => exact trivial
    | false => exact fun _ => ih

theorem keeps_isDone_bind {X A : Type} {g : SDKTests → X} {request : CloudRequest}
    {next : Bool → HostM A} (h : ∀ done, Keeps g (next done)) :
    Keeps g (isDone request >>= next) := h

theorem keeps_answer {X : Type} {g : SDKTests → X} {request : CloudRequest} {key key' : Key}
    {value : List UInt8} : Keeps g (do
      if ← isDone request then
        SDKTests.sendSafe key (← valueOf request)
      else
        SDKTests.sendSafe key' value) :=
  keeps_isDone_bind fun _ => Keeps.ite (Keeps.perform.bind fun _ => keeps_sendSafe) keeps_sendSafe

theorem keeps_cleanup : Keeps (·.firmwareSent) SDKTests.firmwareCampaignCleanup := by
  refine Keeps.get_bind fun _ => Keeps.ite (fun _ => ⟨fun _ => rfl, fun _ => ?_⟩) trivial
  refine Keeps.get_bind fun _ => Keeps.ite (fun reply => ?_) trivial
  cases reply
  · exact trivial
  · exact ⟨fun _ => rfl, trivial⟩

/-- Only one callback changes whether the firmware has been sent. -/
theorem keeps_callback (hp : SDKTests.callback r = some p) (hr : r.key ≠ .firmwarePrepare) :
    Keeps (·.firmwareSent) p := by
  obtain ⟨key, value⟩ := r
  cases key <;> cases hp
  case deviceBooted => exact keeps_sendSafe
  case deviceReady => exact ⟨fun _ => rfl, fun _ => Keeps.ite keeps_sendSafe trivial⟩
  case testAdvance => exact ⟨fun _ => rfl, keeps_sendSafe⟩
  case testFailed => exact fun _ => trivial
  case verifyRegistration =>
    refine ⟨fun _ => rfl, fun reply => ?_⟩
    rcases reply with _ | ⟨_ | _⟩ <;> exact keeps_sendSafe
  case verifyIdentity => exact fun _ => keeps_sendSafe
  case verifyLwm2mGetTest =>
    exact Keeps.get_bind fun _ _ => keeps_waitDone.bind fun _ => keeps_isDone_bind fun _ =>
      Keeps.ite (fun _ => keeps_waitDone.bind fun _ => keeps_answer) keeps_answer
  case verifyLwm2mSetTest =>
    exact Keeps.get_bind fun _ _ => keeps_waitDone.bind fun _ => keeps_answer
  case verifyLwm2mPutTest =>
    refine Keeps.get_bind fun _ _ => keeps_waitDone.bind fun _ => keeps_isDone_bind fun _ => ?_
    refine Keeps.ite (keeps_sendSafe.bind fun _ => trivial) ?_
    refine Keeps.perform.bind fun _ => Keeps.deref.bind fun _ => Keeps.get_bind fun _ _ => ?_
    exact keeps_waitDone.bind fun _ => keeps_isDone_bind fun _ =>
      Keeps.ite keeps_sendSafe keeps_sendSafe
  case verifyLwm2mPostTest =>
    refine Keeps.get_bind fun _ _ => keeps_waitDone.bind fun _ => keeps_isDone_bind fun _ => ?_
    exact Keeps.ite (keeps_sendSafe.bind fun _ => ⟨fun _ => rfl, trivial⟩) trivial
  case verifyLwm2mPostTestResult => exact fun _ => Keeps.ite keeps_sendSafe trivial
  case spdmcReadyChk =>
    exact fun _ => Keeps.ite (keeps_cleanup.bind fun _ _ => trivial) keeps_sendSafe
  case firmwarePrepare => exact absurd rfl hr
  case firmwareUpdate =>
    exact keeps_cleanup.bind fun _ => ⟨fun _ => rfl, fun _ => keeps_sendSafe⟩

/-- And it only adds that it has been. -/
theorem preserves_firmwarePrepare :
    Preserves (·.firmwareSent = true) SDKTests.firmwarePrepare := by
  have hclean : Preserves (·.firmwareSent = true) (do
      SDKTests.firmwareCampaignCleanup
      notifyComplete false) :=
    (keeps_cleanup.preserves (J := (· = true))).bind fun _ _ => trivial
  refine fun _ => Preserves.ite (fun _ => trivial) fun found => ?_
  refine Preserves.ite (fun _ => trivial) fun modified => ?_
  refine Preserves.ite (fun _ => trivial) fun launched => ?_
  exact Preserves.ite hclean ⟨fun _ => id, fun _ _ => rfl,
    keeps_sendSafe.preserves (g := SDKTests.firmwareSent) (J := (· = true))⟩

theorem preserves_callback (hp : SDKTests.callback r = some p) :
    Preserves (·.firmwareSent = true) p := by
  by_cases hr : r.key = .firmwarePrepare
  · obtain rfl : SDKTests.firmwarePrepare = p := by simpa [SDKTests.callback, hr] using hp
    exact preserves_firmwarePrepare
  · exact (keeps_callback hp hr).preserves (J := (· = true))

theorem meets_callback (hp : SDKTests.callback r = some p) : Meets r h p := by
  obtain ⟨key, value⟩ := r
  cases key <;> cases hp
  case deviceBooted => exact meets_deviceBooted
  case deviceReady => exact meets_deviceReady
  case testAdvance => exact meets_testAdvance
  case testFailed => exact meets_testFailed
  case verifyRegistration => exact meets_verifyRegistration
  case verifyIdentity => exact meets_verifyIdentity
  case verifyLwm2mGetTest => exact meets_verifyLwm2mGet
  case verifyLwm2mSetTest => exact meets_verifyLwm2mSet
  case verifyLwm2mPutTest => exact meets_verifyLwm2mPut
  case verifyLwm2mPostTest => exact meets_verifyLwm2mPost
  case verifyLwm2mPostTestResult => exact meets_verifyLwm2mPostResult
  case spdmcReadyChk => exact meets_firmwareReady
  case firmwarePrepare => exact meets_firmwarePrepare
  case firmwareUpdate => exact meets_firmwareUpdate

theorem serves_callback (hp : SDKTests.callback r = some p) : Serves r h [] p h where
  spec := meets_callback hp
  sent := preserves_callback hp
  grounded := grounded_nil
  opened hmem := absurd hmem List.not_mem_nil

/-- A request without a callback. -/
theorem ends_of_ignored (hp : SDKTests.callback r = none) : Ends r h h [] := by
  obtain ⟨key, value⟩ := r
  cases key <;> first | exact ⟨rfl, .same (by decide) rfl⟩ | cases hp

end SimpleCloudClient.Bench
