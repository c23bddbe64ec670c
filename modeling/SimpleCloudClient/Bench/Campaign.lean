import SimpleCloudClient.Bench.Iteration

/-!
# The update campaign

The program `update` takes an iteration other than 0 as the sign that it runs from the updated
image. Here the board is reset only once the host has launched its campaign, but then into either
image and as often as one likes. No answer to the first boot is then taken for one to a later boot,
although the line may still hold some.
-/
namespace SimpleCloudClient.Bench
open CString Procedure Conversation Transition

/-- How far the first boot of `update` has got. -/
inductive Stage where
  /-- The host has not been told of the boot. -/
  | silent
  /-- It has been told. -/
  | ready
  /-- It has confirmed the registration. -/
  | known
  deriving DecidableEq, Repr

/-- The messages whose order matters. -/
def stagedKeys : List Key := [.spdmcReadyChk, .verifyRegistration, .firmwarePrepare]

/-- The order of the messages of the first boot. -/
def stages : Monitor DeviceEvent Stage where
  next stage e :=
    match e with
    | ⟨.command (.sendKv m), _⟩ => if m.key = .spdmcReadyChk then .ready else stage
    | ⟨.parseKv _, m⟩ => if m.1.key = .registered then .known else stage
    | _ => stage
  safe stage e :=
    match e with
    | ⟨.command (.sendKv m), _⟩ =>
      (m.key = .spdmcReadyChk → stage = .silent) ∧ (m.key = .verifyRegistration → stage = .ready) ∧
        (m.key = .firmwarePrepare → stage = .known)
    | ⟨.parseKv _, m⟩ => m.1.key = .registered → stage = .ready
    | _ => True

/-- What the other parts of the program send and wait for. -/
def Unstaged : DeviceCall → Prop :=
  Asks (fun m => m.key ∉ stagedKeys)
    fun keys => .registered ∉ keys

theorem unstaged_frame (stage : Stage) (c : DeviceCall) (reply : c.Reply) (hc : Unstaged c) :
    stages.safe stage ⟨c, reply⟩ ∧ stages.next stage ⟨c, reply⟩ = stage := by
  cases c with
  | command command =>
    cases command with
    | sendKv m =>
      have hm : m.key ∉ stagedKeys := hc
      simp only [stagedKeys, List.mem_cons, List.not_mem_nil, or_false, not_or] at hm
      exact ⟨⟨fun h => absurd h hm.1, fun h => absurd h hm.2.1, fun h => absurd h hm.2.2⟩,
        if_neg hm.1⟩
    | _ => exact ⟨trivial, rfl⟩
  | parseKv keys =>
    have hkey : reply.1.key ≠ .registered := fun hkey => hc (hkey ▸ reply.2)
    exact ⟨fun h => absurd h hkey, if_neg hkey⟩
  | _ => exact ⟨trivial, rfl⟩

section
variable {A B : Type} {p : DeviceM A} {f : A → DeviceM B} {P : B → Unit → Stage → Prop}
  {stage : Stage}

theorem unstaged_bind (hp : Calls Unstaged p) (hf : ∀ a, wp stages (f a) (Returns P) () stage) :
    wp stages (p >>= f) (Returns P) () stage := by
  refine wp_then (hp.frame_returns unstaged_frame) ?_
  rintro a _ _ rfl
  exact hf a

theorem unstaged_end (hp : Calls Unstaged p) :
    wp stages p (Returns fun _ _ _ => True) () stage :=
  hp.wp_returns_true fun stage c reply hc => (unstaged_frame stage c reply hc).1

theorem wp_send_stages {key : Key} {value : List UInt8} {next : Unit → DeviceM B}
    (hsafe : stages.safe stage ⟨.command (.sendKv ⟨key, value⟩), ()⟩)
    (hnext : wp stages (next ()) (Returns P) () (if key = .spdmcReadyChk then .ready else stage)) :
    wp stages (send key value >>= next) (Returns P) () stage :=
  fun _ => ⟨hsafe, hnext⟩

end

theorem unstaged_of_quiet {A : Type} {p : DeviceM A} (h : Calls DeviceCall.Quiet p) :
    Calls Unstaged p := by
  refine asks_quiet (fun m hm => ?_) h
  rw [hm]
  decide

theorem wp_directoryTest_stages :
    wp stages directoryTest (Returns fun _ _ stage => stage = .known) () .ready := by
  refine unstaged_bind ⟨trivial, fun _ => trivial⟩ fun _ => ?_
  refine unstaged_bind (unstaged_of_quiet quiet_endpointName) fun name _ => ?_
  refine ⟨⟨nofun, fun _ => rfl, nofun⟩, fun m => ⟨fun _ => rfl, ?_⟩⟩
  have hstage : stages.next .ready ⟨.parseKv [.registered], m⟩ = .known :=
    if_pos (List.mem_singleton.mp m.2)
  refine hstage ▸ wp_if (fun _ => unstaged_bind (unstaged_of_quiet quiet_testFailed) fun _ => ?_)
    fun _ => ?_
  · exact unstaged_bind (unstaged_of_quiet quiet_finish) fun _ => rfl
  · exact unstaged_bind (unstaged_of_quiet quiet_finish) fun _ => rfl

theorem wp_prepareTest_stages :
    wp stages prepareTest (Returns fun _ _ _ => True) () .known := by
  have hsent : Key.registered ∉ [Key.firmwareSent] := by decide
  refine unstaged_bind ⟨trivial, fun _ => trivial⟩ fun _ => ?_
  refine wp_send_stages ⟨nofun, nofun, fun _ => rfl⟩ (unstaged_end ?_)
  exact ⟨hsent, fun _ => unstaged_of_quiet quiet_finish⟩

/-- The program never resets the device. -/
def Idles : Except Fault Outcome → Unit → Stage → Prop := Returns fun o _ _ => o = .idle

theorem wp_update_stages {timeout : Nat} {memory : Uninitialised} {hasStorage : Bool} :
    wp stages (updateProgram timeout memory hasStorage .built) Idles () .silent := by
  have hbooted : Key.deviceBooted ∉ stagedKeys := by
    decide
  have hiteration : Key.registered ∉ [Key.iteration] := by decide
  refine unstaged_bind ⟨hbooted, fun _ => trivial⟩ fun _ => ?_
  refine unstaged_bind ⟨trivial, fun _ => trivial⟩ fun _ => ?_
  refine wp_send_stages ⟨fun _ => rfl, nofun, nofun⟩ ?_
  refine unstaged_bind ⟨hiteration, fun _ => trivial⟩ fun iteration => ?_
  refine unstaged_bind (unstaged_of_quiet quiet_prepareUpdate) fun _ => wp_if (fun _ => ?_) ?_
  · refine wp_then wp_directoryTest_stages fun ok _ stage hstage => wp_if (fun _ => ?_) ?_
    · subst hstage
      refine wp_then wp_prepareTest_stages fun _ _ _ _ => ?_
      exact unstaged_bind ⟨trivial, fun _ => trivial⟩ fun _ => rfl
    · exact fun _ => rfl
  · have hverify : Key.verifyIdentity ∉ stagedKeys := by decide
    have hidentity : Calls Unstaged (identityTest .postUpdateIdentity 12) :=
      asks_identityTest (fun m hm => by simp [hm, stagedKeys]) (fun _ => hverify) (by decide)
    refine fun _ => unstaged_bind hidentity fun _ => ?_
    exact unstaged_bind ⟨trivial, fun _ => trivial⟩ fun _ => rfl

/-! ## The first boot -/

/-- The request with this number has this key. -/
def Has (l : Link Message) (t : Nat) (key : Key) : Prop :=
  ∃ r, l.requests[t]? = some r ∧ r.key = key

/-- What the stage says about the line. -/
def Stage.Fits : Stage → Link Message → Prop
  | silent, l => ∀ key ∈ stagedKeys, ∀ t, ¬Has l t key
  | ready, l => (∀ t, ¬Has l t .firmwarePrepare) ∧
    ∀ t u, Has l t .spdmcReadyChk → Has l u .verifyRegistration → t < u
  | known, l => ∀ t, Has l t .spdmcReadyChk → t < l.read

variable {moves : List Move} {x : Move} {s s' : Setup} {stage : Stage} {t : Nat} {m : Message}
  {l l' : Link Message} {e : LinkEvent Message} {timeout : Nat} {memory : Uninitialised}
  {hasStorage : Bool} {key : Key}

theorem Has.lt (h : Has l t key) : t < l.requests.length := by
  obtain ⟨r, hr, -⟩ := h
  exact (List.getElem?_eq_some_iff.mp hr).1

theorem Has.before (h : Has l' t key) (hstep : l.Step e l') :
    Has l t key ∨ (∃ m, e = .sent m ∧ m.key = key) ∧ t = l.requests.length := by
  obtain ⟨r, hr, hkey⟩ := h
  rcases hstep.getElem?_cases hr with hold | ⟨hsent, ht⟩
  · exact .inl ⟨r, hold, hkey⟩
  · exact .inr ⟨⟨r, hsent, hkey⟩, ht⟩

theorem Stage.Fits.step (h : stage.Fits l) (hordered : l.Ordered) (hstep : l.Step e l')
    (hsent : ∀ m, e = .sent m → m.key ∉ stagedKeys) : stage.Fits l' := by
  have hold {t : Nat} {key : Key} (hkey : key ∈ stagedKeys) (hr : Has l' t key) : Has l t key := by
    refine (hr.before hstep).resolve_right ?_
    rintro ⟨⟨m, rfl, rfl⟩, -⟩
    exact hsent m rfl hkey
  cases stage with
  | silent => exact fun key hkey t hr => h key hkey t (hold hkey hr)
  | ready =>
    refine ⟨fun t hr => h.1 t (hold (by decide) hr), fun t u hr hr' => ?_⟩
    exact h.2 t u (hold (by decide) hr) (hold (by decide) hr')
  | known =>
    intro t hr
    exact Nat.lt_of_lt_of_le (h t (hold (by decide) hr)) (hordered.read_mono hstep)

/-- The device sends a message where its program allows it. -/
theorem Stage.Fits.send (h : stage.Fits l) (hordered : l.Ordered) (hstep : l.Step (.sent m) l')
    (hsafe : stages.safe stage ⟨.command (.sendKv m), ()⟩) :
    Stage.Fits (if m.key = .spdmcReadyChk then .ready else stage) l' := by
  obtain ⟨hready, hregister, hprepare⟩ := hsafe
  have hback {t : Nat} {key : Key} (hr : Has l' t key) :
      Has l t key ∨ m.key = key ∧ t = l.requests.length := by
    refine (hr.before hstep).imp_right ?_
    rintro ⟨⟨m', hm', hkey⟩, ht⟩
    obtain rfl := LinkEvent.sent.inj hm'
    exact ⟨hkey, ht⟩
  split
  · rename_i hkey
    obtain rfl := hready hkey
    refine ⟨fun t hr => ?_, fun t u hr hr' => ?_⟩
    · rcases hback hr with hold | ⟨hm, -⟩
      · exact h _ (by decide) t hold
      · exact absurd (hkey.symm.trans hm) (by decide)
    · rcases hback hr' with hold | ⟨hm, -⟩
      · exact absurd hold (h _ (by decide) u)
      · exact absurd (hkey.symm.trans hm) (by decide)
  · rename_i hkey
    cases stage with
    | silent =>
      refine h.step hordered hstep fun m' hm' hmem => ?_
      obtain rfl := LinkEvent.sent.inj hm'
      simp only [stagedKeys, List.mem_cons, List.not_mem_nil, or_false] at hmem
      rcases hmem with hm | hm | hm
      · exact hkey hm
      · cases hregister hm
      · cases hprepare hm
    | ready =>
      refine ⟨fun t hr => ?_, fun t u hr hr' => ?_⟩
      · rcases hback hr with hold | ⟨hm, -⟩
        · exact h.1 t hold
        · cases hprepare hm
      · have hr := (hback hr).resolve_right fun hnew => hkey hnew.1
        rcases hback hr' with hold | ⟨-, rfl⟩
        · exact h.2 t u hr hold
        · exact hr.lt
    | known =>
      intro t hr
      have hr := (hback hr).resolve_right fun hnew => hkey hnew.1
      exact Nat.lt_of_lt_of_le (h t hr) (hordered.read_mono hstep)

/-- It reads the answer to its registration. -/
theorem Stage.Fits.register (h : Stage.ready.Fits l) (hlink : l.Step (.received t m) l')
    (hr : Has l t .verifyRegistration) : Stage.known.Fits l' := by
  intro u hu
  rw [hlink.read_eq]
  refine h.2 u t ((hu.before hlink).resolve_right ?_) hr
  rintro ⟨⟨_, ⟨⟩, -⟩, -⟩

/-- The device has not been reset yet. -/
structure FirstBoot (s : Setup) (stage : Stage) : Prop where
  program : wp stages s.device Idles () stage
  fits : stage.Fits s.link

theorem FirstBoot.same (h : FirstBoot s stage) (hordered : s.link.Ordered)
    (hlink : s.link.Step e s'.link) (hsent : ∀ m, e = .sent m → m.key ∉ stagedKeys)
    (hprogram : wp stages s'.device Idles () stage) : FirstBoot s' stage :=
  ⟨hprogram, h.fits.step hordered hlink hsent⟩

theorem FirstBoot.receive (h : FirstBoot s stage) (hserved : Served moves s.link s.host s.handler)
    (hlink : s.link.Step (.received t m) s'.link) (hsafe : m.key = .registered → stage = .ready)
    (hprogram : wp stages s'.device Idles () (if m.key = .registered then .known else stage)) :
    ∃ stage', FirstBoot s' stage' := by
  by_cases hkey : m.key = .registered
  · obtain rfl := hsafe hkey
    obtain ⟨g, -, hg⟩ := hserved.answered t m hlink.mem_toClient
    rw [Justified, hkey] at hg
    have hr : g.r.key = .verifyRegistration := hg.1
    rw [if_pos hkey] at hprogram
    exact ⟨.known, hprogram, h.fits.register hlink ⟨g.r, g.request, hr⟩⟩
  · rw [if_neg hkey] at hprogram
    have hsent : ∀ m', LinkEvent.received t m = .sent m' → m'.key ∉ stagedKeys := by
      rintro _ ⟨⟩
    exact ⟨stage, h.same hserved.ordered hlink hsent hprogram⟩

theorem FirstBoot.step (h : FirstBoot s stage) (hserved : Served moves s.link s.host s.handler)
    (hstep : SetupStep (updateProgram timeout memory hasStorage) s x s')
    (hx : ∀ image, x ≠ .reboot image) : ∃ stage', FirstBoot s' stage' := by
  have hordered := hserved.ordered
  rcases hstep.device_cases with ⟨call, rfl, hproc, htalks, -⟩ | helse |
    ⟨hdevice, hlink, ⟨rfl, hreset, -⟩ | rfl⟩
  · obtain ⟨hsafe, hrest⟩ := wp_step h.program hproc
    rcases htalks.cases with ⟨m, rfl, hlink⟩ | ⟨keys, m, t, rfl, hlink⟩ | ⟨hsilent, hsame⟩
    · exact ⟨_, hrest, h.fits.send hordered hlink (hsafe _ rfl)⟩
    · exact h.receive hserved hlink (hsafe _ rfl) hrest
    · have hlink : s.link.Step .lost s'.link := hsame ▸ .still _
      refine ⟨stage, h.same hordered hlink nofun ?_⟩
      rwa [after_silent fun e he => (unstaged_frame stage e.1 e.2 (hsilent e he _ _)).2] at hrest
  · obtain ⟨e, hlink, hsent⟩ := helse.link
    refine ⟨stage, h.same hordered hlink (fun m hm => ?_) (helse.device ▸ h.program)⟩
    rw [(hsent m hm).1]
    decide
  · have hprogram := h.program
    rw [hreset] at hprogram
    cases hprogram
  · exact absurd rfl (hx _)

/-! ## The host after the launch -/

/-- A callback is running for the request that was taken last. -/
def Serving (s : Setup) (p : HostM Unit) (C : Message → SDKTests → List HostEvent → Prop) : Prop :=
  ∃ t r h₀ past, s.link.taken.getLast? = some t ∧ s.link.requests[t]? = some r ∧
    Serves r h₀ past p s.host ∧ C r h₀ past

variable {p q : HostM Unit} {call : Option HostEvent} {boot : Image → DeviceM Outcome}
  {C C' : Message → SDKTests → List HostEvent → Prop}

theorem Serving.idle (h : Serving s p C) (hhost : s'.host = s.host)
    (hlink : s.link.Step e s'.link) (htaken : s'.link.taken = s.link.taken) :
    Serving s' p C := by
  obtain ⟨t, r, h₀, past, ht, hr, hserves, hC⟩ := h
  exact ⟨t, r, h₀, past, htaken ▸ ht, hlink.getElem? hr, hhost ▸ hserves, hC⟩

theorem Serving.step (h : Serving s p C) (hproc : Procedure.Step (p, s.host) call (q, s'.host))
    (hreply : Replies s.link call s'.link)
    (hC : ∀ r h₀ past, Serves r h₀ past p s.host → C r h₀ past → C' r h₀ (past ++ call.toList)) :
    Serving s' q C' := by
  obtain ⟨t, r, h₀, past, ht, hr, hserves, hpast⟩ := h
  obtain ⟨⟨e, hlink, -⟩, htaken, -⟩ := hreply.link
  exact ⟨t, r, h₀, past ++ call.toList, htaken ▸ ht, hlink.getElem? hr, (hserves.step hproc).1,
    hC r h₀ past hserves hpast⟩

/-- A callback that has just started. -/
theorem serving_of_taken (hordered : s.link.Ordered) (hlink : s.link.Step (.taken t m) s'.link)
    (hhost : s'.host = s.host) (hp : SDKTests.callback m = some p) (hC : C m s.host []) :
    Serving s' p C := by
  have hlast : s'.link.taken.getLast? = some t := by
    generalize s'.link = l at hlink
    cases hlink
    rw [List.getLast?_concat]
  have hrequest := hlink.getElem? (hordered.requested hlink.mem_toServer)
  exact ⟨t, m, s.host, [], hlast, hrequest, hhost ▸ serves_callback hp, hC⟩

/-- The command that starts the campaign has been launched. -/
structure Launched (s : Setup) : Prop where
  asked : ∃ t, Has s.link t .firmwarePrepare
  idle : s.handler = none → s.host.firmwareSent = true
  running : ∀ p, s.handler = some p →
    Serving s p fun _ _ past => s.host.firmwareSent = true ∨ Opened past

theorem Has.step (h : Has l t key) (hstep : l.Step e l') : Has l' t key := by
  obtain ⟨r, hr, hkey⟩ := h
  exact ⟨r, hstep.getElem? hr, hkey⟩

theorem Launched.step (h : Launched s) (hordered : s.link.Ordered)
    (hstep : SetupStep boot s x s') : Launched s' := by
  obtain ⟨e, hlink⟩ := hstep.link
  obtain ⟨t, hasked⟩ := h.asked
  have hprepared : ∃ t, Has s'.link t .firmwarePrepare := ⟨t, hasked.step hlink⟩
  cases hstep.host_cases with
  | take hidle htaken hhost hhandler =>
    have hsent := h.idle hidle
    refine ⟨hprepared, fun _ => hhost ▸ hsent, fun p hp => ?_⟩
    exact serving_of_taken hordered htaken hhost (hhandler ▸ hp) (.inl (hhost ▸ hsent))
  | host hx hp hq hproc hreply =>
    refine ⟨hprepared, fun hnone => by simp [hq] at hnone, fun q' hq' => ?_⟩
    obtain rfl := Option.some.inj (hq.symm.trans hq')
    refine (h.running _ hp).step hproc hreply fun r h₀ past hserves => Or.imp ?_ ?_
    · exact (hserves.sent.step hproc).2
    · exact List.mem_append_left _
  | handled hrunning hnone hhost hsame =>
    refine ⟨hprepared, fun _ => hhost ▸ ?_, fun p hp => by simp [hnone] at hp⟩
    obtain ⟨t, r, h₀, past, -, -, hserves, hsent | hopened⟩ := h.running _ hrunning
    · exact hsent
    · exact hserves.ends.2.firmwareSent.mpr (.inr ⟨hserves.opened hopened, hopened⟩)
  | idle hhandler hhost hquiet htaken hreplied =>
    refine ⟨hprepared, fun hnone => hhost ▸ h.idle (hhandler ▸ hnone), fun p hp => ?_⟩
    rw [hhost]
    exact (h.running p (hhandler ▸ hp)).idle hhost hquiet (hquiet.quiet htaken hreplied).2

/-- The command is launched. -/
theorem launched_of_popen (hserved : Served moves s.link s.host s.handler)
    (hstep : SetupStep boot s (.host (some ⟨.popen, true⟩)) s') : Launched s' := by
  cases hstep with
  | @host p q _ host link hp hproc hreply =>
    obtain ⟨t, ht, g, -, -, hserves⟩ := hserved.running _ hp
    obtain ⟨⟨e, hlink, -⟩, htaken, -⟩ := hreply.link
    have hnext := (hserves.step hproc).1
    have hopened : Opened (g.past ++ [⟨.popen, true⟩]) :=
      List.mem_append_right _ (List.mem_singleton_self _)
    have hrequest := hlink.getElem? g.request
    refine ⟨⟨t, g.r, hrequest, hnext.opened hopened⟩, nofun, fun q' hq' => ?_⟩
    obtain rfl := Option.some.inj hq'
    exact ⟨t, g.r, g.h₀, _, htaken ▸ ht, hrequest, hnext, .inr hopened⟩

theorem launched_of_run (hrun : Run (SetupStep boot) (.initial boot) moves s)
    (hpopen : .host (some ⟨.popen, true⟩) ∈ moves) : Launched s := by
  induction hrun with
  | refl => cases hpopen
  | snoc hrun hstep ih =>
    rcases List.mem_append.mp hpopen with hold | hnew
    · exact (ih hold).step (served_of_run hrun).ordered hstep
    · obtain rfl := List.mem_singleton.mp hnew
      exact launched_of_popen (served_of_run hrun) hstep

/-! ## The boots after the launch -/

/-- Only the modified image gets iterations. -/
structure Relaunched (s : Setup) : Prop where
  launched : Launched s
  answers : ∀ t m, (t, m) ∈ s.link.toClient → m.key = .iteration → Has s.link t .firmwareUpdate
  running : ∀ p, s.handler = some p →
    Serving s p fun r h₀ _ => r.key = .spdmcReadyChk → h₀.firmwareSent = true

theorem key_of_updateAsks {image : Image} (h : updateAsks image m) : m.key ≠ .deviceReady := by
  obtain ⟨key, value⟩ := m
  rintro rfl
  cases image <;> cases h

/-- No program sends what `connect` does when it starts. -/
theorem not_deviceReady (hasked : Asked updateAsks moves s) (ht : Has s.link t .deviceReady) :
    False := by
  obtain ⟨r, hr, hkey⟩ := ht
  rcases hasked.requests r (List.mem_of_getElem? hr) with ⟨image, hok, -⟩ | ⟨rfl, -⟩
  · exact key_of_updateAsks hok hkey
  · cases hkey

theorem Relaunched.step (h : Relaunched s) (hordered : s.link.Ordered)
    (hasked : Asked updateAsks moves s) (hstep : SetupStep boot s x s') : Relaunched s' := by
  have hlaunched := h.launched.step hordered hstep
  obtain ⟨e, hlink⟩ := hstep.link
  have hold {t : Nat} {m : Message} (ht : (t, m) ∈ s.link.toClient) (hkey : m.key = .iteration) :
      Has s'.link t .firmwareUpdate := (h.answers t m ht hkey).step hlink
  cases hstep.host_cases with
  | take hidle htaken hhost hhandler =>
    refine ⟨hlaunched, fun t m ht => hold ?_, fun p hp => ?_⟩
    · generalize s'.link = l at htaken ht
      cases htaken
      exact ht
    · exact serving_of_taken hordered htaken hhost (hhandler ▸ hp) fun _ => h.launched.idle hidle
  | host hx hp hq hproc hreply =>
    refine ⟨hlaunched, fun t m ht hkey => ?_, fun q' hq' => ?_⟩
    · obtain ⟨-, -, hanswers⟩ := hreply.link
      rcases hanswers t m ht with hbefore | ⟨hlast, rfl⟩
      · exact hold hbefore hkey
      · obtain ⟨u, r, h₀, past, hu, hr, hserves, hready⟩ := h.running _ hp
        obtain rfl := Option.some.inj (hlast.symm.trans hu)
        have hjustified := (hserves.step hproc).2 m rfl
        rw [Justified, hkey] at hjustified
        rcases hjustified.1 with ⟨hr', -⟩ | ⟨hr', hunsent⟩ | hr'
        · exact (not_deviceReady hasked ⟨r, hr, hr'⟩).elim
        · exact absurd (hready hr') (by simp [hunsent])
        · exact ⟨r, hlink.getElem? hr, hr'⟩
    · obtain rfl := Option.some.inj (hq.symm.trans hq')
      exact (h.running _ hp).step hproc hreply fun _ _ _ _ => id
  | handled hrunning hnone hhost hsame =>
    exact ⟨hlaunched, fun t m ht => hold (hsame ▸ ht), fun p hp => by simp [hnone] at hp⟩
  | idle hhandler hhost hquiet htaken hreplied =>
    obtain ⟨hclient, hsame⟩ := hquiet.quiet htaken hreplied
    refine ⟨hlaunched, fun t m ht => hold (hclient ht), fun p hp => ?_⟩
    exact (h.running p (hhandler ▸ hp)).idle hhost hquiet hsame

/-- What the first boot leaves behind when the board is reset. -/
theorem FirstBoot.relaunched (h : FirstBoot s stage)
    (hserved : Served moves s.link s.host s.handler) (hasked : Asked updateAsks moves s)
    (hlaunched : Launched s) : Relaunched s := by
  have hordered := hserved.ordered
  have hread {t : Nat} (ht : Has s.link t .spdmcReadyChk) : t < s.link.read := by
    obtain ⟨u, hu⟩ := hlaunched.asked
    have hfits := h.fits
    cases stage with
    | silent => exact absurd hu (hfits _ (by decide) u)
    | ready => exact absurd hu (hfits.1 u)
    | known => exact hfits t ht
  refine ⟨hlaunched, fun t m ht hkey => ?_, fun p hp => ?_⟩
  · obtain ⟨g, -, hg⟩ := hserved.answered t m ht
    rw [Justified, hkey] at hg
    rcases hg.1 with ⟨hr, -⟩ | ⟨hr, -⟩ | hr
    · exact (not_deviceReady hasked ⟨g.r, g.request, hr⟩).elim
    · have hlt := hread ⟨g.r, g.request, hr⟩
      have hle := hordered.unread ht
      omega
    · exact ⟨g.r, g.request, hr⟩
  · obtain ⟨t, r, h₀, past, ht, hr, hserves, -⟩ := hlaunched.running p hp
    refine ⟨t, r, h₀, past, ht, hr, hserves, fun hkey => ?_⟩
    have hlt := hread ⟨r, hr, hkey⟩
    have hle := hordered.read_le ht
    omega

/-- The board is only reset once the host has launched its campaign. -/
def ResetsLaunched (moves : List Move) : Prop :=
  ∀ before image later, moves = before ++ .reboot image :: later →
    .host (some ⟨.popen, true⟩) ∈ before

theorem ResetsLaunched.before (h : ResetsLaunched (moves ++ [x])) : ResetsLaunched moves := by
  intro before image later hsplit
  exact h before image (later ++ [x]) (by simp [hsplit])

theorem campaign_of_run (hrun : Run (SetupStep (updateProgram timeout memory hasStorage))
      (.initial (updateProgram timeout memory hasStorage)) moves s)
    (hresets : ResetsLaunched moves) :
    (∀ image, .reboot image ∉ moves) ∧ (∃ stage, FirstBoot s stage) ∨ Relaunched s := by
  induction hrun with
  | refl => exact .inl ⟨nofun, .silent, wp_update_stages, fun _ _ _ ⟨_, hr, _⟩ => nomatch hr⟩
  | @snoc moves s x s' hrun hstep ih =>
    have hserved := served_of_run hrun
    have hasked : Asked updateAsks moves s := asked_of_run (fun _ => asks_update) hrun
    rcases ih hresets.before with ⟨hno, stage, hfirst⟩ | hagain
    · by_cases hx : ∃ image, x = .reboot image
      · obtain ⟨image, rfl⟩ := hx
        have hlaunched := launched_of_run hrun (hresets moves image [] rfl)
        have hagain := hfirst.relaunched hserved hasked hlaunched
        exact .inr (hagain.step hserved.ordered hasked hstep)
      · have hno' : ∀ image, x ≠ .reboot image := fun image h => hx ⟨image, h⟩
        refine .inl ⟨fun image hmem => ?_, hfirst.step hserved hstep hno'⟩
        rcases List.mem_append.mp hmem with hold | hnew
        · exact hno image hold
        · exact hno' image (List.mem_singleton.mp hnew).symm
    · exact .inr (hagain.step hserved.ordered hasked hstep)


/-- If the board is only reset once the host has launched its campaign, the device accepts
iteration 0 before the first reset and others after the start of the modified image, whatever is
still on its way. -/
theorem campaign_of_accepted (hrun : Run (SetupStep (updateProgram timeout memory hasStorage))
      (.initial (updateProgram timeout memory hasStorage)) moves s)
    (hresets : ResetsLaunched moves) {before later : List Move} {keys : List Key}
    {m : { m : Message // m.key ∈ keys }}
    (hmoves : moves = before ++ .device (some ⟨.parseKv keys, m⟩) :: later)
    (hkey : m.1.key = .iteration) :
    (∀ image, .reboot image ∉ before) ∧ atoi m.1.value = 0 ∨
      .reboot .modified ∈ before ∧ atoi m.1.value ≠ 0 := by
  obtain ⟨s₁, s₂, hbefore, hstep, -⟩ := hrun.cut hmoves
  obtain ⟨-, htalks, -⟩ := hstep.device_step
  obtain ⟨t, hlink⟩ : ∃ t, s₁.link.Step (.received t m.1) s₂.link := htalks
  have hqueued := hlink.mem_toClient
  obtain ⟨g, -, hg⟩ := (served_of_run hbefore).answered t m.1 hqueued
  rw [Justified, hkey] at hg
  obtain ⟨-, hvalue⟩ := hg
  have hzero := atoi_number_eq_zero (n := g.h₀.iteration + if g.r.key.advances then 1 else 0)
  have hlaunched : ResetsLaunched before := by
    rintro front image rest rfl
    exact hresets front image (rest ++ _) (by rw [hmoves, List.append_assoc]; rfl)
  rw [hvalue, Ne, hzero]
  rcases campaign_of_run hbefore hlaunched with ⟨hno, -⟩ | hagain
  · refine .inl ⟨hno, ?_⟩
    by_contra hcount
    exact hno _ (booted_of_counted hbefore g hcount)
  · obtain ⟨r, hr, hupdate⟩ := hagain.answers t m.1 hqueued hkey
    obtain rfl := Option.some.inj (hr.symm.trans g.request)
    have hcount : g.h₀.iteration + (if g.r.key.advances then 1 else 0) ≠ 0 := by
      rw [hupdate]
      exact Nat.succ_ne_zero _
    exact .inr ⟨booted_of_counted hbefore g hcount, hcount⟩

/-- The host launches its campaign. -/
def Move.launches : Move → Bool
  | .host (some ⟨.popen, launched⟩) => launched
  | _ => false

theorem Move.eq_of_launches (h : x.launches = true) : x = .host (some ⟨.popen, true⟩) := by
  cases x with
  | host call =>
    obtain _ | ⟨c, reply⟩ := call
    · cases h
    · cases c with
      | popen =>
        obtain rfl : reply = true := h
        rfl
      | _ => cases h
  | _ => cases h

/-- It is enough that the campaign is launched before the first reset. -/
theorem resetsLaunched_of_any
    (h : (moves.takeWhile (!·.isReboot)).any Move.launches = true) : ResetsLaunched moves := by
  rintro before image later rfl
  obtain ⟨x, hx, hlaunches⟩ := List.any_eq_true.mp h
  have hmem : x ∈ before := by
    rw [List.takeWhile_append] at hx
    split at hx
    · simpa [Move.isReboot] using hx
    · exact (List.takeWhile_sublist _).subset hx
  exact Move.eq_of_launches hlaunches ▸ hmem

theorem campaign_of_accepted_calm : ∃ before keys m later,
    (drive (updateProgram 240 zeroed true) 300 (.initial (updateProgram 240 zeroed true))).1 =
      before ++ .device (some ⟨.parseKv keys, m⟩) :: later ∧
    m.1.key = .iteration ∧ .reboot .modified ∈ before := by
  have hlaunched : ResetsLaunched (drive (updateProgram 240 zeroed true) 300
      (.initial (updateProgram 240 zeroed true))).1 := resetsLaunched_of_any (by decide +kernel)
  have hupdated : (drive (updateProgram 240 zeroed true) 300
      (.initial (updateProgram 240 zeroed true))).1.any Move.updated = true := by decide +kernel
  obtain ⟨x, hx, hx'⟩ := List.any_eq_true.mp hupdated
  obtain ⟨keys, m, rfl, hkey, hvalue⟩ := Move.exists_of_updated hx'
  obtain ⟨before, later, hmoves⟩ := List.append_of_mem hx
  refine ⟨before, keys, m, later, hmoves, hkey, ?_⟩
  rcases campaign_of_accepted (run_drive 300 _) hlaunched hmoves hkey with ⟨-, hzero⟩ | ⟨hbooted, -⟩
  · exact absurd hzero hvalue
  · exact hbooted

end SimpleCloudClient.Bench
