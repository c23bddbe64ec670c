import SimpleCloudClient.Bench.Turns

/-!
# What a reported pass means

Whatever is lost on the line, whenever the board is reset, a program that reports its test suite
as passed has got answers that the host had good grounds for.
-/
namespace SimpleCloudClient.Bench
open CString Procedure Conversation Transition

/-- The device has read this message. -/
def Accepted (past : List DeviceEvent) (key : Key) (value : List UInt8) : Prop :=
  ∃ keys m, (⟨.parseKv keys, m⟩ : DeviceEvent) ∈ past ∧ m.1 = ⟨key, value⟩

def passed : DeviceEvent := ⟨.command (.testsuiteResult true), ()⟩

theorem testsuiteResult_eq {ok : Bool}
    (h : (⟨.command (.testsuiteResult ok), ()⟩ : DeviceEvent) = passed) : ok = true := by
  cases h
  rfl

/-- A pass is only reported after what it takes. -/
def reporting (needs : List DeviceEvent → Prop) : Monitor DeviceEvent (List DeviceEvent) :=
  recording fun past e => e = passed → needs past

variable {needs : List DeviceEvent → Prop} {A : Type} {p : DeviceM A}
  {past more : List DeviceEvent} {test : TestCase} {index : Nat}

/-- Nothing is promised of the result. -/
abbrev Whatever : Except Fault A → Unit → List DeviceEvent → Prop := Returns fun _ _ _ => True

theorem quiet_bind {B : Type} {f : A → DeviceM B} {P : B → Unit → List DeviceEvent → Prop}
    (hp : Calls DeviceCall.Quiet p)
    (hf : ∀ a more, past ⊆ more → wp (reporting needs) (f a) (Returns P) () more) :
    wp (reporting needs) (p >>= f) (Returns P) () past := by
  have hsafe : wp (reporting needs) p Whatever () past := by
    refine hp.wp_returns_true fun m c r hc => ?_
    rintro ⟨⟩
    exact hc.elim
  exact wp_then (wp_recording hsafe) fun a _ more hmore => hf a more hmore.2

theorem Accepted.mono {key : Key} {value : List UInt8} (h : Accepted past key value)
    (hsub : past ⊆ more) : Accepted more key value := by
  obtain ⟨keys, m, hmem, hm⟩ := h
  exact ⟨keys, m, hsub hmem, hm⟩

theorem wp_parse_bind {keys : List Key} {next : { m : Message // m.key ∈ keys } → DeviceM A}
    {T : Except Fault A → Unit → List DeviceEvent → Prop}
    (hnext : ∀ m more, Accepted more m.1.key m.1.value →
      wp (reporting needs) (next m) T () more) :
    wp (reporting needs) (parse keys >>= next) T () past :=
  fun m => ⟨nofun, hnext m _ ⟨keys, m, List.mem_append_right _ (List.mem_singleton_self _), rfl⟩⟩

/-- A test that hears from the host, and what it takes to succeed. -/
theorem wp_resourceTest {request : Message} {answer : Key} {check : List UInt8 → DeviceM Bool}
    {P : List DeviceEvent → Prop} (hP : ∀ past more, past ⊆ more → P past → P more)
    (hcheck : ∀ value past, Accepted past answer value →
      wp (reporting needs) (check value) (Returns fun ok _ more => ok = true → P more) () past) :
    wp (reporting needs) (resourceTest test index request answer check)
      (Returns fun ok _ more => (ok = true → P more) ∧ past ⊆ more) () past := by
  refine wp_recording fun _ => ⟨nofun, fun _ => ⟨nofun, wp_parse_bind fun m more hm => ?_⟩⟩
  have hfinish {ok : Bool} {last : List DeviceEvent} (hok : ok = true → P last) :
      wp (reporting needs) (do
        finish test 0 ok
        return ok) (Returns fun ok _ more => ok = true → P more) () last :=
    fun _ => ⟨nofun, fun h => hP _ _ (List.subset_append_left ..) (hok h)⟩
  refine wp_if (fun hkey => ?_) fun _ => hfinish nofun
  rw [hkey] at hm
  exact wp_then (hcheck _ _ hm) fun ok _ last hok => hfinish hok

theorem wp_getTest : wp (reporting needs) getTest (Returns fun ok _ more =>
    (ok = true → Accepted more .getValue (ascii "test0")) ∧ past ⊆ more) () past := by
  refine wp_resourceTest (fun _ _ hsub h => h.mono hsub) fun value past hvalue hok => ?_
  obtain rfl := of_decide_eq_true hok
  exact hvalue

theorem wp_setTest : wp (reporting needs) setTest (Returns fun ok _ more =>
    (ok = true → Accepted more .setValue (ascii "test1")) ∧ past ⊆ more) () past := by
  refine wp_recording fun _ => ⟨nofun, fun _ => ⟨nofun, fun _ => ⟨nofun, ?_⟩⟩⟩
  refine wp_parse_bind fun m more hm _ => ⟨nofun, fun hok => ?_⟩
  obtain ⟨hkey, hvalue⟩ := of_decide_eq_true hok
  rw [hkey, hvalue] at hm
  exact hm.mono (List.subset_append_left ..)

/-- The value that the host has set is the one that the device has. -/
def PutConfirmed (past : List DeviceEvent) : Prop :=
  ∃ value current, Accepted past .resSet value ∧
    (⟨.status .getValueInt, current⟩ : DeviceEvent) ∈ past ∧ atoi value = current.toInt

theorem PutConfirmed.mono (h : PutConfirmed past) (hsub : past ⊆ more) : PutConfirmed more := by
  obtain ⟨value, current, hvalue, hcurrent, hequal⟩ := h
  exact ⟨value, current, hvalue.mono hsub, hsub hcurrent, hequal⟩

theorem wp_putTest : wp (reporting needs) putTest (Returns fun ok _ more =>
    (ok = true → PutConfirmed more) ∧ past ⊆ more) () past := by
  refine wp_resourceTest (fun _ _ hsub h => h.mono hsub) fun value past hvalue current =>
    ⟨nofun, fun hok => ?_⟩
  exact ⟨value, current, hvalue.mono (List.subset_append_left ..),
    List.mem_append_right _ (List.mem_singleton_self _), of_decide_eq_true hok⟩

theorem wp_postTest : wp (reporting needs) postTest (Returns fun ok _ more =>
    (ok = true → ∃ value, Accepted more .postTestExecuted value) ∧ past ⊆ more) () past := by
  refine wp_resourceTest ?_ fun value past hvalue _ => ⟨value, hvalue⟩
  rintro past more hsub ⟨value, hvalue⟩
  exact ⟨value, hvalue.mono hsub⟩

theorem wp_endpointName_bind {turns : Nat} {next : List UInt8 → DeviceM A}
    {P : A → Unit → List DeviceEvent → Prop}
    (hnext : ∀ name past, wp (reporting needs) (next name) (Returns P) () past) :
    wp (reporting needs) (endpointName turns >>= next) (Returns P) () past :=
  quiet_bind quiet_endpointName fun name more _ => hnext name more

theorem wp_directoryTest : wp (reporting needs) directoryTest Whatever () past := by
  refine fun _ => ⟨nofun, wp_endpointName_bind fun name past _ => ⟨nofun, fun m => ⟨nofun, ?_⟩⟩⟩
  exact wp_if (fun _ _ => ⟨nofun, fun _ => ⟨nofun, trivial⟩⟩) fun _ _ => ⟨nofun, trivial⟩

theorem wp_identityTest : wp (reporting needs) (identityTest test index) (Returns fun ok _ more =>
    (ok = true → ∃ value, Accepted more .verified value ∧ atoi value ≠ 0) ∧ past ⊆ more)
    () past := by
  refine wp_recording fun _ => ⟨nofun, wp_endpointName_bind fun name past _ => ⟨nofun, ?_⟩⟩
  refine wp_parse_bind fun m more hm _ => ⟨nofun, fun hok => ?_⟩
  have hkey : m.1.key = .verified := List.mem_singleton.mp m.2
  rw [hkey] at hm
  exact ⟨_, hm.mono (List.subset_append_left ..), of_decide_eq_true hok⟩

theorem wp_readIteration_bind {next : Int → DeviceM A}
    {T : Except Fault A → Unit → List DeviceEvent → Prop}
    (hnext : ∀ value more, Accepted more .iteration value →
      wp (reporting needs) (next (atoi value)) T () more) :
    wp (reporting needs) (readIteration >>= next) T () past := by
  intro m
  refine ⟨nofun, hnext m.1.value _ ⟨_, m, List.mem_append_right _ (List.mem_singleton_self _), ?_⟩⟩
  have hkey : m.1.key = .iteration := List.mem_singleton.mp m.2
  exact congrArg (Message.mk · m.1.value) hkey

/-- What the program `connect` needs to pass. -/
structure ConnectNeeds (past : List DeviceEvent) : Prop where
  get : Accepted past .getValue (ascii "test0")
  set : Accepted past .setValue (ascii "test1")
  put : PutConfirmed past
  post : ∃ value, Accepted past .postTestExecuted value

theorem wp_connectTests : wp (reporting ConnectNeeds) connectTests Whatever () past := by
  refine wp_then wp_identityTest fun _ _ past _ => ?_
  refine wp_then wp_getTest fun getOk _ past hget => ?_
  refine wp_then wp_setTest fun setOk _ pastSet hset => ?_
  refine wp_then wp_putTest fun putOk _ pastPut hput => ?_
  refine wp_then wp_postTest fun postOk _ pastPost hpost _ => ⟨fun hpass => ?_, trivial⟩
  have hall : (getOk && setOk && putOk && postOk) = true := testsuiteResult_eq hpass
  simp only [Bool.and_eq_true] at hall
  obtain ⟨⟨⟨hgetOk, hsetOk⟩, hputOk⟩, hpostOk⟩ := hall
  have hsub : pastSet ⊆ pastPost := List.Subset.trans hput.2 hpost.2
  exact ⟨(hget.1 hgetOk).mono (List.Subset.trans hset.2 hsub), (hset.1 hsetOk).mono hsub,
    (hput.1 hputOk).mono hpost.2, hpost.1 hpostOk⟩

theorem wp_spdmcTestsuiteConnect {memory : Uninitialised} :
    wp (reporting ConnectNeeds) (spdmcTestsuiteConnect memory) Whatever () past := by
  refine fun _ => ⟨nofun, wp_readIteration_bind fun value past _ => ?_⟩
  refine quiet_bind quiet_prepareConnect fun _ past _ => ?_
  refine wp_if (fun _ => ?_) fun _ => wp_then wp_connectTests fun _ _ _ _ => trivial
  refine wp_then wp_directoryTest fun ok _ past _ => ?_
  exact wp_if (fun _ _ => ⟨nofun, fun _ => ⟨nofun, trivial⟩⟩) fun _ => trivial

/-- What the program `update` needs to pass. -/
structure UpdateNeeds (past : List DeviceEvent) : Prop where
  updated : ∃ value, Accepted past .iteration value ∧ atoi value ≠ 0
  identity : ∃ value, Accepted past .verified value ∧ atoi value ≠ 0

theorem wp_spdmcTestsuiteUpdate {memory : Uninitialised} {hasStorage : Bool} {image : Image} :
    wp (reporting UpdateNeeds) (spdmcTestsuiteUpdate memory hasStorage image) Whatever () past := by
  refine fun _ => ⟨nofun, wp_readIteration_bind fun value more hvalue => ?_⟩
  refine quiet_bind quiet_prepareUpdate fun _ last hlast => ?_
  refine wp_if (fun _ => ?_) fun hiteration => ?_
  · refine wp_then wp_directoryTest fun ok _ past _ => wp_if (fun _ _ => ?_) fun _ => trivial
    exact ⟨nofun, fun _ => ⟨nofun, fun m => ⟨nofun, fun _ => ⟨nofun, fun _ => ⟨nofun, trivial⟩⟩⟩⟩⟩
  · refine wp_then wp_identityTest fun ok _ past hidentity _ => ⟨fun hpass => ?_, trivial⟩
    refine ⟨⟨value, ?_, hiteration⟩, hidentity.1 (testsuiteResult_eq hpass)⟩
    exact hvalue.mono (List.Subset.trans hlast hidentity.2)

/-! ## Runs -/

variable {boot : Image → DeviceM Outcome} {moves : List Move} {s : Setup} {timeout : Nat}
  {memory : Uninitialised} {hasStorage : Bool}

theorem wp_main {testsuite : DeviceM Outcome}
    (h : ∀ past, wp (reporting needs) testsuite Whatever () past) :
    wp (reporting needs) (main timeout testsuite) Whatever () past :=
  fun _ => ⟨nofun, fun _ => ⟨nofun, h _⟩⟩

/-- Events of the device in this run. -/
def Happened (moves : List Move) (past : List DeviceEvent) : Prop :=
  ∀ e ∈ past, .device (some e) ∈ moves

theorem Happened.later {x : Move} (h : Happened moves past) : Happened (moves ++ [x]) past :=
  fun e he => List.mem_append_left _ (h e he)

/-- What is left of the program still reports a pass only on what it takes, and so it has done. -/
structure Reports (needs : List DeviceEvent → Prop) (moves : List Move) (s : Setup) : Prop where
  program : ∃ past, wp (reporting needs) s.device Whatever () past ∧ Happened moves past
  reported : .device (some passed) ∈ moves → ∃ past, needs past ∧ Happened moves past

theorem Reports.step {x : Move} {s' : Setup} (h : Reports needs moves s)
    (hboot : ∀ image, wp (reporting needs) (boot image) Whatever () [])
    (hstep : SetupStep boot s x s') : Reports needs (moves ++ [x]) s' := by
  obtain ⟨⟨past, hwp, hpast⟩, hreported⟩ := h
  have hold (hpass : .device (some passed) ∈ moves) :
      ∃ past, needs past ∧ Happened (moves ++ [x]) past := by
    obtain ⟨past, hneeds, hpast⟩ := hreported hpass
    exact ⟨past, hneeds, hpast.later⟩
  have hsame (hx : ∀ call, x ≠ .device call) (hpass : .device (some passed) ∈ moves ++ [x]) :
      ∃ past, needs past ∧ Happened (moves ++ [x]) past := by
    rcases List.mem_append.mp hpass with hbefore | hnew
    · exact hold hbefore
    · exact absurd (List.mem_singleton.mp hnew).symm (hx _)
  rcases hstep.device_cases with ⟨call, rfl, hproc, -⟩ | helse | ⟨hdevice, -, hx⟩
  · obtain ⟨hsafe, hrest⟩ := wp_step hwp hproc
    refine ⟨⟨past ++ call.toList, ?_, fun e he => ?_⟩, fun hpass => ?_⟩
    · cases call with
      | none => simpa using hrest
      | some e => exact hrest
    · rcases List.mem_append.mp he with hbefore | hnew
      · exact hpast.later e hbefore
      · rw [Option.mem_toList.mp hnew]
        exact List.mem_append_right _ (List.mem_singleton_self _)
    · rcases List.mem_append.mp hpass with hbefore | hnew
      · exact hold hbefore
      · have hcall := Move.device.inj (List.mem_singleton.mp hnew)
        exact ⟨past, hsafe passed hcall.symm rfl, hpast.later⟩
  · exact ⟨⟨past, helse.device ▸ hwp, hpast.later⟩, hsame helse.ne_device⟩
  · refine ⟨⟨[], hdevice ▸ hboot _, by simp [Happened]⟩, hsame ?_⟩
    rcases hx with ⟨rfl, -⟩ | rfl <;> exact fun _ h => nomatch h

theorem reports_of_run (hboot : ∀ image, wp (reporting needs) (boot image) Whatever () [])
    (hrun : Run (SetupStep boot) (.initial boot) moves s) : Reports needs moves s := by
  induction hrun with
  | refl => exact ⟨⟨[], hboot .built, by simp [Happened]⟩, by simp⟩
  | snoc _ hstep ih => exact ih.step hboot hstep

def Move.passes : Move → Bool
  | .device (some ⟨.command (.testsuiteResult ok), _⟩) => ok
  | _ => false

theorem mem_of_passes (h : moves.any Move.passes = true) : .device (some passed) ∈ moves := by
  obtain ⟨x, hx, hpasses⟩ := List.any_eq_true.mp h
  unfold Move.passes at hpasses
  split at hpasses
  · rw [hpasses] at hx
    exact hx
  · cases hpasses

/-- The cloud has read this value of a resource, of a device that was looked for. -/
def ReadByCloud (moves : List Move) (l : Link Message) (deviceID : Option (List UInt8))
    (path value : List UInt8) : Prop :=
  .host (some ⟨.value (.getResourceValue deviceID path), value⟩) ∈ moves ∧
    ∀ name, deviceID = some name → ⟨.verifyRegistration, name⟩ ∈ l.requests

/-- What stands behind a pass of `connect`. -/
structure ConnectPassed (moves : List Move) (l : Link Message) : Prop where
  get : ∃ deviceID, ReadByCloud moves l deviceID (ascii "/5000/0/1") (ascii "test0")
  set : ∃ deviceID, ReadByCloud moves l deviceID (ascii "/5000/0/1") (ascii "test1")
  put : ∃ deviceID text n current, ReadByCloud moves l deviceID (ascii "/5000/0/2") text ∧
    pyInt text = some n ∧
    .host (some ⟨.isDone (.setResourceValue deviceID (ascii "/5000/0/2") (n + 5)), true⟩) ∈ moves ∧
    .device (some ⟨.status .getValueInt, current⟩) ∈ moves ∧
    current.toInt = clamp (n + 5)
  post : .posted ∈ moves

/-- A message that the device has seen is justified. -/
theorem Accepted.justified {key : Key} {value : List UInt8} (h : Accepted past key value)
    (hpast : Happened moves past) (hrun : Run (SetupStep boot) (.initial boot) moves s) :
    ∃ t, ∃ g : Grounds moves s.link t, Justified g.r g.h₀ g.past ⟨key, value⟩ := by
  obtain ⟨keys, m, hmem, hm⟩ := h
  obtain ⟨t, g, -, hg⟩ := accepted_of_run hrun (hpast _ hmem)
  exact ⟨t, g, hm ▸ hg⟩

/-- The grounds for a value read are a reading of the cloud. -/
theorem Grounds.readByCloud {t : Nat} {path value : List UInt8} (g : Grounds moves s.link t)
    (hgot : Got g.past (.getResourceValue g.h₀.deviceID path) value) :
    ReadByCloud moves s.link g.h₀.deviceID path value :=
  ⟨g.happened _ hgot, g.named⟩

/-- Whatever is lost and whenever the board is reset: when `connect` reports a pass, the cloud has
read both values of the first resource, it has written to the second, where the device has found
the new value, and the callback of the third has been called. -/
theorem connectPassed_of_run (hrun : Run (SetupStep (connectProgram timeout memory))
      (.initial (connectProgram timeout memory)) moves s)
    (hpass : .device (some passed) ∈ moves) : ConnectPassed moves s.link := by
  obtain ⟨past, hneeds, hpast⟩ :=
    (reports_of_run (fun _ => wp_main fun _ => wp_spdmcTestsuiteConnect) hrun).reported hpass
  have hasked : Asked (fun _ => connectAsks) moves s := asked_of_run (fun _ => asks_connect) hrun
  have hposted : ∀ m ∈ resourceRequests, m.key ≠ .verifyLwm2mPostTestResult := by decide
  have hsent {t : Nat} (g : Grounds moves s.link t) :
      connectAsks g.r ∨ g.r = postResult ∧ .posted ∈ moves :=
    (hasked.requests g.r (List.mem_of_getElem? g.request)).imp_left fun ⟨_, hok, _⟩ => hok
  have hrequest {t : Nat} (g : Grounds moves s.link t) {m : Message} (hm : m ∈ resourceRequests)
      (hkey : g.r.key = m.key) : g.r = m := by
    rcases hsent g with hok | ⟨hr, -⟩
    · exact eq_of_connectAsks hok hm hkey
    · rw [hr] at hkey
      exact absurd hkey.symm (hposted m hm)
  refine ⟨?_, ?_, ?_, ?_⟩
  · obtain ⟨t, g, hkey, hgot⟩ := hneeds.get.justified hpast hrun
    have hr : g.r = getRequest := hrequest g (by decide) hkey
    rw [hr] at hgot
    exact ⟨_, g.readByCloud hgot⟩
  · obtain ⟨t, g, hkey, hgot⟩ := hneeds.set.justified hpast hrun
    have hr : g.r = setRequest := hrequest g (by decide) hkey
    rw [hr] at hgot
    exact ⟨_, g.readByCloud hgot⟩
  · obtain ⟨value, current, hvalue, hcurrent, hequal⟩ := hneeds.put
    obtain ⟨t, g, hkey, text, n, hn, hgot, hdid, rfl⟩ := hvalue.justified hpast hrun
    have hr : g.r = putRequest := hrequest g (by decide) hkey
    rw [hr] at hgot hdid
    refine ⟨_, text, n, current, g.readByCloud hgot, hn, g.happened _ hdid, hpast _ hcurrent, ?_⟩
    rw [← hequal, atoi_number]
  · obtain ⟨value, hvalue⟩ := hneeds.post
    obtain ⟨t, g, hkey, -⟩ := hvalue.justified hpast hrun
    rcases hsent g with hok | ⟨-, hmove⟩
    · rw [connectAsks, hkey] at hok
      exact absurd hkey (hposted _ hok)
    · exact hmove

theorem connectPassed_of_run_calm :
    ∃ moves s, .device (some passed) ∈ moves ∧ ConnectPassed moves (Setup.link s) := by
  have hpass : .device (some passed) ∈ (drive (connectProgram 240 zeroed) 300
      (.initial (connectProgram 240 zeroed))).1 := mem_of_passes (by decide +kernel)
  exact ⟨_, _, hpass, connectPassed_of_run (run_drive 300 _) hpass⟩

/-- What stands behind a pass of `update`. -/
structure UpdatePassed (moves : List Move) (l : Link Message) : Prop where
  updated : .reboot .modified ∈ moves
  /-- The device has asked to be looked up before it asked to be recognised. -/
  identity : ∃ (name : List UInt8) (u t : Nat), u < t ∧
    l.requests[u]? = some ⟨.verifyRegistration, name⟩ ∧
    l.requests[t]? = some ⟨.verifyIdentity, name⟩

/-- A request that counts up has been heard before a positive count. -/
theorem exists_of_advanced {l : Link Message} {t : Nat} (h : l.Ordered) (hpos : 0 < advanced l t) :
    ∃ r ∈ l.requests, r.key.advances = true := by
  obtain ⟨r, hr, hadvances⟩ := List.countP_pos_iff.mp hpos
  exact ⟨r, (h.heard_sublist t).subset hr, hadvances⟩

/-- Only the modified image makes such a request. -/
theorem booted_of_advances (hrun : Run (SetupStep (updateProgram timeout memory hasStorage))
      (.initial (updateProgram timeout memory hasStorage)) moves s)
    (h : ∃ r ∈ s.link.requests, r.key.advances = true) : .reboot .modified ∈ moves := by
  obtain ⟨r, hr, hadvances⟩ := h
  have hasked : Asked updateAsks moves s := asked_of_run (fun _ => asks_update) hrun
  rcases hasked.requests r hr with ⟨image, hok, hbooted⟩ | ⟨rfl, -⟩
  · obtain rfl : image = .modified := by
      obtain ⟨key, value⟩ := r
      cases image <;> cases key <;> simp_all [updateAsks, Key.advances, Image.readyKey]
    exact hbooted.resolve_left (by decide)
  · cases hadvances

theorem atoi_number_eq_zero {n : Nat} : atoi (number n) = 0 ↔ n = 0 := by
  rw [atoi_number, clamp]
  omega

/-- So no other is answered with an iteration other than 0. -/
theorem booted_of_counted (hrun : Run (SetupStep (updateProgram timeout memory hasStorage))
      (.initial (updateProgram timeout memory hasStorage)) moves s) {t : Nat}
    (g : Grounds moves s.link t)
    (hcount : g.h₀.iteration + (if g.r.key.advances then 1 else 0) ≠ 0) :
    .reboot .modified ∈ moves := by
  apply booted_of_advances hrun
  by_cases hadvances : g.r.key.advances = true
  · exact ⟨g.r, List.mem_of_getElem? g.request, hadvances⟩
  · rw [if_neg hadvances, g.iteration] at hcount
    exact exists_of_advanced (served_of_run hrun).ordered (Nat.pos_of_ne_zero hcount)

/-- When `update` reports a pass, the modified image has been booted, and the name under which the
device asked to be recognised is one under which it had registered. -/
theorem updatePassed_of_run (hrun : Run (SetupStep (updateProgram timeout memory hasStorage))
      (.initial (updateProgram timeout memory hasStorage)) moves s)
    (hpass : .device (some passed) ∈ moves) : UpdatePassed moves s.link := by
  obtain ⟨past, hneeds, hpast⟩ :=
    (reports_of_run (fun _ => wp_main fun _ => wp_spdmcTestsuiteUpdate) hrun).reported hpass
  refine ⟨?_, ?_⟩
  · obtain ⟨value, hvalue, hnonzero⟩ := hneeds.updated
    obtain ⟨t, g, -, rfl⟩ := hvalue.justified hpast hrun
    exact booted_of_counted hrun g fun hcount => hnonzero (atoi_number_eq_zero.mpr hcount)
  · obtain ⟨value, hvalue, hnonzero⟩ := hneeds.identity
    obtain ⟨t, g, hkey, rfl⟩ := hvalue.justified hpast hrun
    have hname : g.h₀.deviceID = some g.r.value := by
      by_contra hname
      rw [if_neg hname] at hnonzero
      exact hnonzero (atoi_number_eq_zero (n := 0).mpr rfl)
    obtain ⟨u, hlt, hu⟩ := g.registered hname
    exact ⟨g.r.value, u, t, hlt, hu, hkey ▸ g.request⟩

theorem updatePassed_of_run_calm :
    ∃ moves s, .device (some passed) ∈ moves ∧ UpdatePassed moves (Setup.link s) := by
  have hpass : .device (some passed) ∈ (drive (updateProgram 240 zeroed true) 300
      (.initial (updateProgram 240 zeroed true))).1 := mem_of_passes (by decide +kernel)
  exact ⟨_, _, hpass, updatePassed_of_run (run_drive 300 _) hpass⟩

end SimpleCloudClient.Bench
