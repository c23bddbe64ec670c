import SimpleCloudClient.Bench.Host
import SimpleCloudClient.Bench.Device
import SimpleCloudClient.Library.Conversation
import SimpleCloudClient.Library.Threads

/-!
# A device under test and its host

The two parties and the line between them. The device takes the steps of its program, the host runs
one callback after the other, the line loses what it likes, and the board may be reset at any time,
with either of the two images.
-/
namespace SimpleCloudClient.Bench
open Procedure Conversation Transition

structure Setup where
  device : DeviceM Outcome
  image : Image := .built
  /-- `endpointInfo` of the device. -/
  endpointInfo : Option (List UInt8) := none
  link : Link Message := {}
  host : SDKTests := {}
  /-- What is left of the callback that is running. -/
  handler : Option (HostM Unit) := none

inductive Move where
  | device (call : Option DeviceEvent)
  /-- The device reads a message that it is not waiting for. -/
  | skip (m : Message)
  | take (m : Message)
  | host (call : Option HostEvent)
  /-- A callback has ended. -/
  | handled
  | lose
  /-- The callback `registered` of the device. -/
  | registered (name : List UInt8)
  /-- The callback `post_test_callback` of the device. -/
  | posted
  /-- The device resets itself. -/
  | reset
  /-- It is reset from outside. -/
  | reboot (image : Image)

/-- What a step of the device does to the line. -/
def Talks (l : Link Message) (call : Option DeviceEvent) (l' : Link Message) : Prop :=
  match call with
  | some ⟨.command (.sendKv m), _⟩ => l.Step (.sent m) l'
  | some ⟨.parseKv _, m⟩ => ∃ t, l.Step (.received t m.1) l'
  | _ => l' = l

/-- What a step of the host does to it. -/
def Replies (l : Link Message) (call : Option HostEvent) (l' : Link Message) : Prop :=
  match call with
  | some ⟨.sendKv m, _⟩ => l.Step (.replied m) l'
  | _ => l' = l

def postResult : Message := ⟨.verifyLwm2mPostTestResult, number 0⟩

inductive SetupStep (boot : Image → DeviceM Outcome) : Setup → Move → Setup → Prop where
  | device {s : Setup} {call : Option DeviceEvent} {device : DeviceM Outcome}
      {link : Link Message} : Procedure.Step (s.device, ()) call (device, ()) →
      Talks s.link call link → (∀ name, call = some ⟨.endpointInfo, name⟩ → name = s.endpointInfo) →
      SetupStep boot s (.device call) { s with device, link }
  | skip {s : Setup} {keys : List Key} {next : { m : Message // m.key ∈ keys } → DeviceM Outcome}
      {t : Nat} {m : Message} {link : Link Message} : s.device = .call (.parseKv keys) next →
      m.key ∉ keys → s.link.Step (.received t m) link →
      SetupStep boot s (.skip m) { s with link }
  | take {s : Setup} {t : Nat} {m : Message} {link : Link Message} : s.handler = none →
      s.link.Step (.taken t m) link →
      SetupStep boot s (.take m) { s with link, handler := SDKTests.callback m }
  | host {s : Setup} {p q : HostM Unit} {call : Option HostEvent} {host : SDKTests}
      {link : Link Message} : s.handler = some p → Procedure.Step (p, s.host) call (q, host) →
      Replies s.link call link →
      SetupStep boot s (.host call) { s with link, host, handler := some q }
  | handled {s : Setup} : s.handler = some (.ret ()) →
      SetupStep boot s .handled { s with handler := none }
  | lose {s : Setup} {link : Link Message} : s.link.Step .lost link →
      SetupStep boot s .lose { s with link }
  | registered (s : Setup) (name : List UInt8) :
      SetupStep boot s (.registered name) { s with endpointInfo := some name }
  | posted (s : Setup) : SetupStep boot s .posted { s with link := s.link.send postResult }
  | reset {s : Setup} : s.device = .ret .reset →
      SetupStep boot s .reset { s with device := boot s.image, endpointInfo := none }
  | reboot (s : Setup) (image : Image) :
      SetupStep boot s (.reboot image) { s with device := boot image, image, endpointInfo := none }

/-- The host has been set up, and the image that was built starts. -/
def Setup.initial (boot : Image → DeviceM Outcome) : Setup := { device := boot .built }

/-! ## The steps -/

variable {boot : Image → DeviceM Outcome} {s s' : Setup} {moves : List Move} {x : Move}
  {l l' : Link Message} {t : Nat} {m : Message}

/-- A step of a callback adds at most an answer to the request that was taken last. -/
theorem Replies.link {call : Option HostEvent} (h : Replies l call l') :
    (∃ e, l.Step e l' ∧ (∀ t m, e ≠ .taken t m) ∧ ∀ m, e ≠ .sent m) ∧ l'.taken = l.taken ∧
      ∀ t m, (t, m) ∈ l'.toClient → (t, m) ∈ l.toClient ∨
        l.taken.getLast? = some t ∧ call = some ⟨.sendKv m, ()⟩ := by
  have hsame (hl : l' = l) : (∃ e, l.Step e l' ∧ (∀ t m, e ≠ .taken t m) ∧ ∀ m, e ≠ .sent m) ∧
      l'.taken = l.taken ∧ ∀ t m, (t, m) ∈ l'.toClient → (t, m) ∈ l.toClient ∨
        l.taken.getLast? = some t ∧ call = some ⟨.sendKv m, ()⟩ := by
    subst hl
    exact ⟨⟨.lost, .still _, nofun, nofun⟩, rfl,
      fun t m ht => .inl ht⟩
  unfold Replies at h
  split at h
  · rename_i m _
    refine ⟨⟨_, h, nofun, nofun⟩, ?_⟩
    cases h
    refine ⟨rfl, fun t m' ht => ?_⟩
    rcases List.mem_append.mp ht with hold | hnew
    · exact .inl hold
    · obtain ⟨u, hu, heq⟩ := Option.map_eq_some_iff.mp (Option.mem_toList.mp hnew)
      obtain ⟨rfl, rfl⟩ := Prod.mk.inj heq
      exact .inr ⟨hu, rfl⟩
  · exact hsame h

/-- What the device does is a step of the line, or none. -/
theorem Talks.link {call : Option DeviceEvent} (h : Talks l call l') :
    ∃ e, l.Step e l' ∧ (∀ t m, e ≠ .taken t m) ∧ (∀ m, e ≠ .replied m) ∧
      ∀ m, e = .sent m → call = some ⟨.command (.sendKv m), ()⟩ := by
  have hsame (hl : l' = l) : ∃ e, l.Step e l' ∧ (∀ t m, e ≠ .taken t m) ∧ (∀ m, e ≠ .replied m) ∧
      ∀ m, e = .sent m → call = some ⟨.command (.sendKv m), ()⟩ :=
    ⟨.lost, hl ▸ .still _, nofun, nofun, nofun⟩
  unfold Talks at h
  split at h
  · refine ⟨_, h, nofun, nofun, fun m' hm => ?_⟩
    obtain rfl := LinkEvent.sent.inj hm
    rfl
  · obtain ⟨t, hstep⟩ := h
    exact ⟨_, hstep, nofun, nofun, nofun⟩
  · exact hsame h

/-- The three kinds of steps of the device. -/
theorem Talks.cases {call : Option DeviceEvent} (h : Talks l call l') :
    (∃ m, call = some ⟨.command (.sendKv m), ()⟩ ∧ l.Step (.sent m) l') ∨
    (∃ keys m t, call = some ⟨.parseKv keys, m⟩ ∧ l.Step (.received t m.1) l') ∨
    (∀ e, call = some e → ∀ ok hears, Asks ok hears e.1) ∧ l' = l := by
  unfold Talks at h
  split at h
  · exact .inl ⟨_, rfl, h⟩
  · obtain ⟨t, hstep⟩ := h
    exact .inr (.inl ⟨_, _, t, rfl, hstep⟩)
  · rename_i hsend hparse
    refine .inr (.inr ⟨?_, h⟩)
    rintro ⟨c, reply⟩ rfl ok hears
    cases c with
    | command command =>
      cases command with
      | sendKv m => exact absurd rfl (hsend m reply)
      | _ => exact trivial
    | parseKv keys => exact absurd rfl (hparse keys reply)
    | _ => exact trivial

def Move.isReset : Move → Bool
  | .reset => true
  | _ => false

/-- A step that leaves the device alone asks for nothing but the callback of the resource. -/
structure Elsewhere (s : Setup) (x : Move) (s' : Setup) : Prop where
  device : s'.device = s.device
  image : s'.image = s.image
  ne_device : ∀ call, x ≠ .device call
  isReset : x.isReset = false
  link : ∃ e, s.link.Step e s'.link ∧ ∀ m, e = .sent m → m = postResult ∧ x = .posted

/-- The three kinds of steps: of the device, elsewhere, and the start of an image. -/
theorem SetupStep.device_cases (h : SetupStep boot s x s') :
    (∃ call, x = .device call ∧ Procedure.Step (s.device, ()) call (s'.device, ()) ∧
      Talks s.link call s'.link ∧ s'.image = s.image) ∨
    Elsewhere s x s' ∨
    s'.device = boot s'.image ∧ s'.link = s.link ∧
      (x = .reset ∧ s.device = .ret .reset ∧ s'.image = s.image ∨ x = .reboot s'.image) := by
  cases h with
  | device hstep htalks _ => exact .inl ⟨_, rfl, hstep, htalks, rfl⟩
  | reset hdevice => exact .inr (.inr ⟨rfl, rfl, .inl ⟨rfl, hdevice, rfl⟩⟩)
  | reboot => exact .inr (.inr ⟨rfl, rfl, .inr rfl⟩)
  | host _ _ hreply =>
    obtain ⟨⟨e, hlink, -, hsent⟩, -⟩ := hreply.link
    exact .inr (.inl ⟨rfl, rfl, fun _ h => (nomatch h), rfl, e, hlink,
      fun m hm => absurd hm (hsent m)⟩)
  | posted =>
    exact .inr (.inl ⟨rfl, rfl, fun _ h => (nomatch h), rfl, _, .sent _ _,
      fun m hm => ⟨(LinkEvent.sent.inj hm).symm, rfl⟩⟩)
  | skip _ _ hlink =>
    exact .inr (.inl ⟨rfl, rfl, fun _ h => (nomatch h), rfl, _, hlink, nofun⟩)
  | take _ hlink =>
    exact .inr (.inl ⟨rfl, rfl, fun _ h => (nomatch h), rfl, _, hlink, nofun⟩)
  | lose hlink =>
    exact .inr (.inl ⟨rfl, rfl, fun _ h => (nomatch h), rfl, _, hlink, nofun⟩)
  | handled | registered =>
    exact .inr (.inl ⟨rfl, rfl, fun _ h => (nomatch h), rfl, _, .still _, nofun⟩)

/-- The kinds of steps of the host. -/
inductive HostStep (s : Setup) (x : Move) (s' : Setup) : Prop where
  | take {t : Nat} {m : Message} : s.handler = none → s.link.Step (.taken t m) s'.link →
      s'.host = s.host → s'.handler = SDKTests.callback m → HostStep s x s'
  | host {p q : HostM Unit} {call : Option HostEvent} : x = .host call → s.handler = some p →
      s'.handler = some q → Procedure.Step (p, s.host) call (q, s'.host) →
      Replies s.link call s'.link → HostStep s x s'
  | handled : s.handler = some (.ret ()) → s'.handler = none → s'.host = s.host →
      s'.link = s.link → HostStep s x s'
  | idle {e : LinkEvent Message} : s'.handler = s.handler → s'.host = s.host →
      s.link.Step e s'.link → (∀ t m, e ≠ .taken t m) → (∀ m, e ≠ .replied m) → HostStep s x s'

theorem SetupStep.host_cases (h : SetupStep boot s x s') : HostStep s x s' := by
  have hsame {l : Link Message} : l.Step .lost l := .still l
  cases h with
  | device _ htalks _ =>
    obtain ⟨e, hlink, htaken, hreplied, -⟩ := htalks.link
    exact .idle rfl rfl hlink htaken hreplied
  | skip _ _ hlink => exact .idle rfl rfl hlink nofun nofun
  | take hidle hlink => exact .take hidle hlink rfl rfl
  | host hrunning hproc hreply => exact .host rfl hrunning rfl hproc hreply
  | handled hrunning => exact .handled hrunning rfl rfl rfl
  | lose hlink => exact .idle rfl rfl hlink nofun nofun
  | posted => exact .idle rfl rfl (.sent _ _) nofun nofun
  | registered | reset | reboot => exact .idle rfl rfl hsame nofun nofun

theorem SetupStep.device_step {call : Option DeviceEvent} (h : SetupStep boot s (.device call) s') :
    Procedure.Step (s.device, ()) call (s'.device, ()) ∧ Talks s.link call s'.link ∧
      s'.image = s.image := by
  cases h with
  | device hstep htalks _ => exact ⟨hstep, htalks, rfl⟩

/-- Every step is one of the line. -/
theorem SetupStep.link (h : SetupStep boot s x s') : ∃ e, s.link.Step e s'.link := by
  rcases h.device_cases with ⟨_, -, -, htalks, -⟩ | ⟨_, _, _, _, e, hlink, -⟩ | ⟨-, hsame, -⟩
  · obtain ⟨e, hlink, -⟩ := htalks.link
    exact ⟨e, hlink⟩
  · exact ⟨e, hlink⟩
  · exact ⟨.lost, hsame ▸ .still _⟩

/-! ## What the programs ask -/

/-- The image that runs has been booted. -/
def Booted (moves : List Move) (image : Image) : Prop := image = .built ∨ .reboot image ∈ moves

/-- Every request was sent by the program of an image, or by the callback of the resource. -/
structure Asked (ok : Image → Message → Prop) (moves : List Move) (s : Setup) : Prop where
  program : Calls (Asks (ok s.image) fun _ => True) s.device
  booted : Booted moves s.image
  requests : ∀ m ∈ s.link.requests, (∃ image, ok image m ∧ Booted moves image) ∨
    m = postResult ∧ .posted ∈ moves

theorem Booted.later {image : Image} (h : Booted moves image) : Booted (moves ++ [x]) image :=
  h.imp_right fun hmem => List.mem_append_left _ hmem

/-- The requests that a step adds. -/
theorem SetupStep.requests (h : SetupStep boot s x s') (hm : m ∈ s'.link.requests) :
    m ∈ s.link.requests ∨ x = .device (some ⟨.command (.sendKv m), ()⟩) ∨
      m = postResult ∧ x = .posted := by
  have hnew {e : LinkEvent Message} (hlink : s.link.Step e s'.link) :
      m ∈ s.link.requests ∨ e = .sent m := by
    rcases hlink.requests_cases with hsame | ⟨m', rfl, hrequests⟩
    · exact .inl (hsame ▸ hm)
    · rw [hrequests, List.mem_append, List.mem_singleton] at hm
      exact hm.imp_right fun hm => congrArg _ hm.symm
  rcases h.device_cases with ⟨call, rfl, -, htalks, -⟩ | helse | ⟨-, hsame, -⟩
  · obtain ⟨e, hlink, -, -, hsent⟩ := htalks.link
    exact (hnew hlink).imp_right fun he => .inl (congrArg Move.device (hsent m he))
  · obtain ⟨e, hlink, hsent⟩ := helse.link
    exact (hnew hlink).imp_right fun he => .inr (hsent m he)
  · exact .inl (hsame ▸ hm)

theorem asked_of_run {ok : Image → Message → Prop}
    (hboot : ∀ image, Calls (Asks (ok image) fun _ => True) (boot image))
    (hrun : Run (SetupStep boot) (.initial boot) moves s) : Asked ok moves s := by
  induction hrun with
  | refl => exact ⟨hboot .built, .inl rfl, by simp [Setup.initial]⟩
  | @snoc moves s x s' _ hstep ih =>
    obtain ⟨hprogram, hbooted, hrequests⟩ := ih
    have hnext : Calls (Asks (ok s'.image) fun _ => True) s'.device ∧
        Booted (moves ++ [x]) s'.image := by
      rcases hstep.device_cases with ⟨call, -, hproc, -, himage⟩ | helse |
        ⟨hdevice, -, ⟨-, -, himage⟩ | rfl⟩
      · rw [himage]
        exact ⟨(hprogram.step hproc).1, hbooted.later⟩
      · rw [helse.image, helse.device]
        exact ⟨hprogram, hbooted.later⟩
      · rw [hdevice, himage]
        exact ⟨hboot _, hbooted.later⟩
      · rw [hdevice]
        exact ⟨hboot _, .inr (List.mem_append_right _ (List.mem_singleton_self _))⟩
    refine ⟨hnext.1, hnext.2, fun m hm => ?_⟩
    rcases hstep.requests hm with hold | rfl | ⟨rfl, rfl⟩
    · rcases hrequests m hold with ⟨image, hok, himage⟩ | ⟨rfl, hposted⟩
      · exact .inl ⟨image, hok, himage.later⟩
      · exact .inr ⟨rfl, List.mem_append_left _ hposted⟩
    · obtain ⟨hproc, -⟩ := hstep.device_step
      exact .inl ⟨s.image, (hprogram.step hproc).2 _ rfl, hbooted.later⟩
    · exact .inr ⟨rfl, List.mem_append_right _ (List.mem_singleton_self _)⟩

/-! ## A calm schedule -/

/-- Memory that happens to hold zeros. -/
def zeroed : Uninitialised where
  resource := ⟨false, 0⟩
  resourceDef := ⟨⟨0, 0, 0⟩, CString.empty, 0, [], false, none, none, none⟩

/-- Every call succeeds, and the resource that `connect` sets has been set to 6. -/
def deviceAnswer : (c : DeviceCall) → Option c.Reply
  | .command _ => some ()
  | .status .getValueInt => some (6 : Int32)
  | .status _ => some (0 : Int32)
  | .isClientRegistered => some true
  | .parseKv _ | .endpointInfo => none

/-- The cloud reads this value. -/
def hostAnswer (value : List UInt8) : (c : HostCall) → c.Reply
  | .sendKv _ | .start _ | .sleep | .notifyComplete _ | .terminate => ()
  | .getDevice _ => some true
  | .isDone _ | .updateImageExists | .modifyImage | .popen | .removeFile => true
  | .value _ => value

/-- What the test that is waiting expects the cloud to read. -/
def Setup.expected (s : Setup) : List UInt8 :=
  match s.device with
  | .call (.parseKv keys) _ =>
    if .setValue ∈ keys then ascii "test1" else if .resSet ∈ keys then number 1 else ascii "test0"
  | _ => []

def Setup.hostNext (s : Setup) : HostM Unit → Option (Move × Setup)
  | .ret () => some (.handled, { s with handler := none })
  | .crash _ => none
  | .read next => some (.host none, { s with handler := some (next s.host) })
  | .modify f next => some (.host none, { s with host := f s.host, handler := some next })
  | .call (.sendKv m) next =>
    some (.host (some ⟨.sendKv m, ()⟩),
      { s with link := s.link.reply m, handler := some (next ()) })
  | .call c next =>
    let reply := hostAnswer s.expected c
    some (.host (some ⟨c, reply⟩), { s with handler := some (next reply) })

def Setup.deviceNext (boot : Image → DeviceM Outcome) (s : Setup) :
    DeviceM Outcome → Option (Move × Setup)
  | .ret .reset => some (.reset, { s with device := boot s.image, endpointInfo := none })
  | .ret .idle =>
    if s.host.firmwareSent ∧ s.image = .built then
      some (.reboot .modified,
        { s with device := boot .modified, image := .modified, endpointInfo := none })
    else
      none
  | .crash _ => none
  | .read next => some (.device none, { s with device := next () })
  | .modify _ next => some (.device none, { s with device := next })
  | .call (.command (.sendKv m)) next =>
    some (.device (some ⟨.command (.sendKv m), ()⟩),
      { s with device := next (), link := s.link.send m })
  | .call (.parseKv keys) next =>
    match s.link.toClient with
    | (t, m) :: toClient =>
      let link := { s.link with toClient, read := t }
      if h : m.key ∈ keys then
        some (.device (some ⟨.parseKv keys, ⟨m, h⟩⟩), { s with device := next ⟨m, h⟩, link })
      else
        some (.skip m, { s with link })
    | [] =>
      if .postTestExecuted ∈ keys then
        some (.posted, { s with link := s.link.send postResult })
      else
        none
  | .call .endpointInfo next =>
    match s.endpointInfo with
    | none => some (.registered (ascii "device"), { s with endpointInfo := some (ascii "device") })
    | some name =>
      some (.device (some ⟨.endpointInfo, some name⟩), { s with device := next (some name) })
  | .call c next =>
    (deviceAnswer c).map fun reply => (.device (some ⟨c, reply⟩), { s with device := next reply })

/-- The host takes the next step if it can, and the device otherwise; nothing is lost, and the
modified image is booted as soon as it has been sent. -/
def Setup.next (boot : Image → DeviceM Outcome) (s : Setup) : Option (Move × Setup) :=
  match s.handler with
  | some p => s.hostNext p
  | none =>
    match s.link.toServer with
    | (t, m) :: toServer =>
      let link := { s.link with toServer, taken := s.link.taken ++ [t] }
      some (.take m, { s with link, handler := SDKTests.callback m })
    | [] => s.deviceNext boot s.device

def drive (boot : Image → DeviceM Outcome) : Nat → Setup → List Move × Setup
  | 0, s => ([], s)
  | n + 1, s =>
    match s.next boot with
    | some (x, s') => ((x :: (drive boot n s').1), (drive boot n s').2)
    | none => ([], s)

theorem Setup.hostNext_step {p : HostM Unit} (hp : s.handler = some p)
    (h : s.hostNext p = some (x, s')) : SetupStep boot s x s' := by
  unfold hostNext at h
  split at h
  · obtain ⟨rfl, rfl⟩ := h
    exact .handled hp
  · cases h
  · obtain ⟨rfl, rfl⟩ := h
    exact .host hp (.read ..) rfl
  · obtain ⟨rfl, rfl⟩ := h
    exact .host hp (.modify ..) rfl
  · obtain ⟨rfl, rfl⟩ := h
    exact .host hp (.call ..) (.replied ..)
  · rename_i c next hquiet
    obtain ⟨rfl, rfl⟩ := h
    refine .host hp (.call ..) ?_
    cases c
    case sendKv m => exact (hquiet m _ rfl HEq.rfl).elim
    all_goals rfl

theorem Setup.deviceNext_step {p : DeviceM Outcome} (hp : s.device = p)
    (h : s.deviceNext boot p = some (x, s')) : SetupStep boot s x s' := by
  unfold deviceNext at h
  split at h
  case h_1 =>
    obtain ⟨rfl, rfl⟩ := h
    exact .reset hp
  case h_2 =>
    split at h
    · obtain ⟨rfl, rfl⟩ := h
      exact .reboot ..
    · cases h
  case h_3 => cases h
  case h_4 =>
    obtain ⟨rfl, rfl⟩ := h
    exact .device (hp ▸ .read ..) rfl nofun
  case h_5 =>
    obtain ⟨rfl, rfl⟩ := h
    exact .device (hp ▸ .modify ..) rfl nofun
  case h_6 =>
    obtain ⟨rfl, rfl⟩ := h
    exact .device (hp ▸ .call ..) (.sent ..) nofun
  case h_7 =>
    split at h
    · split at h
      · obtain ⟨rfl, rfl⟩ := h
        exact .device (hp ▸ .call ..) ⟨_, .received ‹_›⟩ nofun
      · obtain ⟨rfl, rfl⟩ := h
        exact .skip hp ‹_› (.received ‹_›)
    · split at h
      · obtain ⟨rfl, rfl⟩ := h
        exact .posted s
      · cases h
  case h_8 =>
    split at h
    · obtain ⟨rfl, rfl⟩ := h
      exact .registered ..
    · rename_i name hname
      obtain ⟨rfl, rfl⟩ := h
      refine .device (hp ▸ .call ..) rfl fun name' hcall => ?_
      cases hcall
      exact hname.symm
  case h_9 =>
    rename_i c next hsend _ _
    obtain ⟨reply, hreply, heq⟩ := Option.map_eq_some_iff.mp h
    obtain ⟨rfl, rfl⟩ := heq
    cases c with
    | command command =>
      refine .device (hp ▸ .call ..) ?_ nofun
      cases command with
      | sendKv m => exact (hsend m _ rfl HEq.rfl).elim
      | _ => rfl
    | status | isClientRegistered => exact .device (hp ▸ .call ..) rfl nofun
    | parseKv | endpointInfo => cases hreply

/-- The schedule takes steps of the system. -/
theorem Setup.next_step (h : s.next boot = some (x, s')) : SetupStep boot s x s' := by
  unfold next at h
  split at h
  · exact Setup.hostNext_step ‹_› h
  · split at h
    · obtain ⟨rfl, rfl⟩ := h
      exact .take ‹_› (.taken ‹_›)
    · exact Setup.deviceNext_step rfl h

theorem run_drive (n : Nat) (s : Setup) :
    Run (SetupStep boot) s (drive boot n s).1 (drive boot n s).2 := by
  induction n generalizing s with
  | zero => exact .refl
  | succ n ih =>
    rw [drive]
    split
    · exact (Run.single (Setup.next_step ‹_›)).append (ih _)
    · exact .refl

end SimpleCloudClient.Bench
