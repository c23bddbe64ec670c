import SimpleCloudClient.Bench.Verdicts

/-!
# One reset, and no stale iteration

The program `connect` runs twice, with one reset between, and tells its two runs apart by the
`iteration` that the host sends. The host sends each answer five times over and the line loses some,
so answers of the first run may still be on their way in the second. Unless the board is reset from
outside, the device never takes such an answer for one of the second run.
-/
namespace SimpleCloudClient.Bench
open CString Procedure Conversation Transition

/-- How far a run of `connect` has got. -/
inductive Phase where
  /-- No iteration yet. -/
  | waiting
  /-- Iteration 0. -/
  | first
  /-- The host has been asked to advance. -/
  | advancing
  /-- It has answered. -/
  | resetting
  /-- Another iteration. -/
  | later
  deriving DecidableEq, Repr

/-- A device asks the host to advance in the first iteration only, and resets on its answer. -/
def phases : Monitor DeviceEvent Phase where
  next phase e :=
    match e with
    | ⟨.command (.sendKv m), _⟩ => if m.key = .testAdvance then .advancing else phase
    | ⟨.parseKv _, m⟩ =>
      if m.1.key = .iteration then
        if atoi m.1.value = 0 then .first else .later
      else if m.1.key = .reset then .resetting else phase
    | _ => phase
  safe phase e :=
    match e with
    | ⟨.command (.sendKv m), _⟩ => m.key = .testAdvance → phase = .first
    | ⟨.parseKv _, m⟩ =>
      (m.1.key = .iteration → phase = .waiting) ∧ (m.1.key = .reset → phase = .advancing)
    | _ => True

/-- What the other parts of the program send and wait for. -/
def Unphased : DeviceCall → Prop :=
  Asks (fun m => m.key ≠ .testAdvance) fun keys => .iteration ∉ keys ∧ .reset ∉ keys

theorem unphased_frame (phase : Phase) (c : DeviceCall) (reply : c.Reply) (hc : Unphased c) :
    phases.safe phase ⟨c, reply⟩ ∧ phases.next phase ⟨c, reply⟩ = phase := by
  cases c with
  | command command =>
    cases command with
    | sendKv m => exact ⟨fun hm => absurd hm hc, if_neg hc⟩
    | _ => exact ⟨trivial, rfl⟩
  | parseKv keys =>
    have hiteration : reply.1.key ≠ .iteration := fun hkey => hc.1 (hkey ▸ reply.2)
    have hreset : reply.1.key ≠ .reset := fun hkey => hc.2 (hkey ▸ reply.2)
    exact ⟨⟨fun hkey => absurd hkey hiteration, fun hkey => absurd hkey hreset⟩,
      (if_neg hiteration).trans (if_neg hreset)⟩
  | _ => exact ⟨trivial, rfl⟩

section
variable {A B : Type} {p : DeviceM A} {f : A → DeviceM B} {P : B → Unit → Phase → Prop}
  {phase : Phase}

theorem unphased_bind (hp : Calls Unphased p) (hf : ∀ a, wp phases (f a) (Returns P) () phase) :
    wp phases (p >>= f) (Returns P) () phase := by
  refine wp_then (hp.frame_returns unphased_frame) ?_
  rintro a _ _ rfl
  exact hf a

theorem wp_readIteration_phases {next : Int → DeviceM B}
    (hnext : ∀ i : Int, wp phases (next i) (Returns P) () (if i = 0 then .first else .later)) :
    wp phases (readIteration >>= next) (Returns P) () .waiting := by
  intro m
  have hkey : m.1.key = .iteration := List.mem_singleton.mp m.2
  refine ⟨⟨fun _ => rfl, fun hreset => absurd (hkey.symm.trans hreset) (by decide)⟩, ?_⟩
  have hphase : phases.next .waiting ⟨.parseKv [.iteration], m⟩ =
      if atoi m.1.value = 0 then .first else .later := if_pos hkey
  rw [hphase]
  exact hnext _

end

/-- The program resets only after the host has answered. -/
def Resets : Except Fault Outcome → Unit → Phase → Prop :=
  Returns fun o _ phase => o = .reset → phase = .resetting

theorem wp_connect_phases {timeout : Nat} {memory : Uninitialised} :
    wp phases (main timeout (spdmcTestsuiteConnect memory)) Resets () .waiting := by
  have hquiet (m : Message) (hm : m.key = .testFailed) : m.key ≠ .testAdvance := by simp [hm]
  refine unphased_bind ⟨nofun, fun _ => trivial⟩ fun _ => ?_
  refine unphased_bind ⟨trivial, fun _ => trivial⟩ fun _ => ?_
  refine unphased_bind ⟨nofun, fun _ => trivial⟩ fun _ => wp_readIteration_phases fun i => ?_
  refine unphased_bind (asks_quiet hquiet quiet_prepareConnect) fun _ => ?_
  refine wp_if (fun hi => ?_) fun _ => ?_
  · rw [if_pos hi]
    refine unphased_bind (asks_directoryTest hquiet nofun (by decide)) fun ok => ?_
    refine wp_if (fun _ _ => ⟨fun _ => rfl, fun m => ?_⟩) fun _ => nofun
    have hkey : m.1.key = .reset := List.mem_singleton.mp m.2
    have hphase : phases.next .advancing ⟨.parseKv [.reset], m⟩ = .resetting := by
      simp [phases, hkey]
    refine ⟨⟨fun h => absurd (hkey.symm.trans h) (by decide), fun _ => rfl⟩, fun _ => hphase⟩
  · exact unphased_bind (asks_connectTests hquiet nofun (by decide) (by decide)) fun _ => nofun

/-! ## Runs without a reset from outside -/

/-- How often the device has reset itself. -/
def resets (moves : List Move) : Nat := moves.countP Move.isReset

/-- The requests to advance that belong to the present run. -/
def Phase.asked : Phase → Nat
  | advancing | resetting => 1
  | waiting | first | later => 0

/-- The device has read an answer to a request to advance, or a later one. -/
def Advanced (l : Link Message) : Prop :=
  ∃ t ∈ l.taken, t ≤ l.read ∧ ∃ r, l.requests[t]? = some r ∧ r.key.advances = true

/-- What the resets so far and the phase of the program say about the line. -/
structure Progress (moves : List Move) (s : Setup) (phase : Phase) : Prop where
  program : wp phases s.device Resets () phase
  asked : s.link.requests.countP (·.key.advances) = resets moves + phase.asked
  order : resets moves = 0 ∧ phase ≠ .later ∨
    resets moves = 1 ∧ (phase = .waiting ∨ phase = .later)
  heard : resets moves = 1 ∨ phase = .resetting → Advanced s.link

variable {moves : List Move} {x : Move} {s s' : Setup} {phase : Phase} {t : Nat} {m : Message}
  {l l' : Link Message} {e : LinkEvent Message} {timeout : Nat} {memory : Uninitialised}
  {boot : Image → DeviceM Outcome}

theorem Advanced.step (h : Advanced l) (hordered : l.Ordered) (hstep : l.Step e l') :
    Advanced l' := by
  obtain ⟨t, ht, hread, r, hr, hadvances⟩ := h
  have hmono := hordered.read_mono hstep
  exact ⟨t, hstep.taken_subset ht, by omega, r, hstep.getElem? hr, hadvances⟩

theorem resets_snoc : resets (moves ++ [x]) = resets moves + if x.isReset then 1 else 0 := by
  rw [resets, List.countP_append, List.countP_singleton]
  rfl

/-- While the device waits for an iteration, the one on its way is the number of resets. -/
theorem Progress.iteration (h : Progress moves s .waiting)
    (hserved : Served moves s.link s.host s.handler)
    (hasked : Asked (fun _ => connectAsks) moves s) (hm : (t, m) ∈ s.link.toClient)
    (hkey : m.key = .iteration) : atoi m.value = resets moves := by
  have hordered := hserved.ordered
  obtain ⟨g, -, hg⟩ := hserved.answered t m hm
  rw [Justified, hkey] at hg
  obtain ⟨hr, hvalue⟩ := hg
  have hready : g.r.key = .deviceReady := by
    rcases hasked.requests g.r (List.mem_of_getElem? g.request) with ⟨_, hok, -⟩ | ⟨hpost, -⟩
    · obtain ⟨hchk, hupdate, -⟩ := key_of_connectAsks hok
      rcases hr with ⟨hr, -⟩ | ⟨hr, -⟩ | hr
      · exact hr
      · exact absurd hr hchk
      · exact absurd hr hupdate
    · simp [hpost, postResult] at hr
  have hadvances : ¬g.r.key.advances = true := by
    rw [hready]
    decide
  have hupper : advanced s.link t ≤ resets moves := by
    have hle := (hordered.heard_sublist t).countP_le (p := (·.key.advances))
    have hasked := h.asked
    simp only [Phase.asked] at hasked
    unfold advanced
    omega
  have hlower (hone : resets moves = 1) : 0 < advanced s.link t := by
    obtain ⟨u, hu, hread, r, hrequest, hadv⟩ := h.heard (.inl hone)
    have hle := hordered.unread hm
    have hne : u ≠ t := by
      rintro rfl
      obtain rfl := Option.some.inj (hrequest.symm.trans g.request)
      exact hadvances hadv
    exact List.countP_pos_iff.mpr ⟨r, Link.mem_heard hu (by omega) hrequest, hadv⟩
  have hequal : advanced s.link t = resets moves := by
    rcases h.order with ⟨hzero, -⟩ | ⟨hone, -⟩
    · omega
    · have := hlower hone
      omega
  have hle : resets moves ≤ 1 := by
    rcases h.order with ⟨hzero, -⟩ | ⟨hone, -⟩ <;> omega
  rw [hvalue, if_neg hadvances, g.iteration, hequal, atoi_number, clamp]
  omega

/-- A step that neither resets nor asks to advance. -/
theorem Progress.change {phase' : Phase} (h : Progress moves s phase) (hordered : s.link.Ordered)
    (hlink : s.link.Step e s'.link) (hsent : ∀ m, e = .sent m → m.key.advances = false)
    (hx : x.isReset = false) (hprogram : wp phases s'.device Resets () phase')
    (hasked : phase'.asked = phase.asked)
    (horder : resets moves = 0 ∧ phase' ≠ .later ∨
      resets moves = 1 ∧ (phase' = .waiting ∨ phase' = .later))
    (hheard : phase' = .resetting → Advanced s'.link) : Progress (moves ++ [x]) s' phase' := by
  have hresets : resets (moves ++ [x]) = resets moves := by simp [resets_snoc, hx]
  refine ⟨hprogram, ?_, hresets ▸ horder, fun hpast => ?_⟩
  · rw [hresets, hasked, ← h.asked]
    rcases hlink.requests_cases with hsame | ⟨m, rfl, hnew⟩
    · rw [hsame]
    · simp [hnew, hsent m rfl]
  · rcases hpast with hone | hphase
    · exact (h.heard (.inl (hresets ▸ hone))).step hordered hlink
    · exact hheard hphase

/-- A step that leaves the phase alone. -/
theorem Progress.same (h : Progress moves s phase) (hordered : s.link.Ordered)
    (hlink : s.link.Step e s'.link) (hsent : ∀ m, e = .sent m → m.key.advances = false)
    (hx : x.isReset = false) (hprogram : wp phases s'.device Resets () phase) :
    Progress (moves ++ [x]) s' phase :=
  h.change hordered hlink hsent hx hprogram rfl h.order fun hphase =>
    (h.heard (.inr hphase)).step hordered hlink

/-- The device reads the iteration. -/
theorem Progress.begin (h : Progress moves s .waiting) (hordered : s.link.Ordered)
    (hlink : s.link.Step (.received t m) s'.link) (hvalue : atoi m.value = resets moves)
    (hx : x.isReset = false)
    (hprogram : wp phases s'.device Resets () (if atoi m.value = 0 then .first else .later)) :
    Progress (moves ++ [x]) s' (if atoi m.value = 0 then .first else .later) := by
  refine h.change hordered hlink nofun hx hprogram ?_ ?_ ?_
  · split <;> rfl
  · rcases h.order with ⟨hzero, -⟩ | ⟨hone, -⟩
    · exact .inl ⟨hzero, by simp [hvalue, hzero]⟩
    · exact .inr ⟨hone, by simp [hvalue, hone]⟩
  · split <;> nofun

/-- The device asks the host to advance. -/
theorem Progress.advance (h : Progress moves s .first)
    (hrequests : s'.link.requests = s.link.requests ++ [m]) (hm : m.key.advances = true)
    (hx : x.isReset = false) (hprogram : wp phases s'.device Resets () .advancing) :
    Progress (moves ++ [x]) s' .advancing := by
  have hresets : resets (moves ++ [x]) = resets moves := by simp [resets_snoc, hx]
  have hzero : resets moves = 0 := by simpa using h.order
  refine ⟨hprogram, ?_, .inl ⟨hresets.trans hzero, nofun⟩, ?_⟩
  · simp [hrequests, h.asked, hresets, Phase.asked, hm]
  · rintro (hone | hphase)
    · omega
    · cases hphase

/-- The device reads the answer. -/
theorem Progress.answered (h : Progress moves s .advancing)
    (hserved : Served moves s.link s.host s.handler)
    (hlink : s.link.Step (.received t m) s'.link) (hkey : m.key = .reset)
    (hx : x.isReset = false) (hprogram : wp phases s'.device Resets () .resetting) :
    Progress (moves ++ [x]) s' .resetting := by
  have hmem := hlink.mem_toClient
  refine h.change hserved.ordered hlink nofun hx hprogram rfl ?_ fun _ => ?_
  · exact .inl ⟨by simpa using h.order, nofun⟩
  · obtain ⟨g, -, hg⟩ := hserved.answered t m hmem
    rw [Justified, hkey] at hg
    have hr : g.r.key = .testAdvance := hg.1
    refine ⟨t, hlink.taken_subset (hserved.ordered.answers hmem), hlink.read_eq.ge, g.r,
      hlink.getElem? g.request, ?_⟩
    rw [hr]
    rfl

/-- The device resets itself. -/
theorem Progress.reset (h : Progress moves s phase) (hdevice : s.device = .ret .reset)
    (hlink : s'.link = s.link) (hprogram : wp phases s'.device Resets () .waiting)
    (hx : x.isReset = true) : Progress (moves ++ [x]) s' .waiting := by
  have hphase : phase = .resetting := by
    have hwp := h.program
    rw [hdevice] at hwp
    exact hwp rfl
  subst hphase
  have hresets : resets (moves ++ [x]) = resets moves + 1 := by simp [resets_snoc, hx]
  have hzero : resets moves = 0 := by simpa using h.order
  refine ⟨hprogram, ?_, .inr ⟨by omega, .inl rfl⟩, fun _ => hlink ▸ h.heard (.inr rfl)⟩
  rw [hlink, h.asked, hresets]
  rfl

theorem Progress.send (h : Progress moves s phase) (hordered : s.link.Ordered)
    (hlink : s.link.Step (.sent m) s'.link) (hsafe : m.key = .testAdvance → phase = .first)
    (hok : connectAsks m) (hx : x.isReset = false)
    (hprogram : wp phases s'.device Resets ()
      (if m.key = .testAdvance then .advancing else phase)) :
    ∃ phase', Progress (moves ++ [x]) s' phase' := by
  by_cases hm : m.key = .testAdvance
  · obtain rfl := hsafe hm
    rw [if_pos hm] at hprogram
    exact ⟨_, h.advance hlink.requests_eq (by rw [hm]; rfl) hx hprogram⟩
  · rw [if_neg hm] at hprogram
    refine ⟨phase, h.same hordered hlink (fun m' hm' => ?_) hx hprogram⟩
    obtain rfl := LinkEvent.sent.inj hm'
    exact Bool.eq_false_iff.mpr fun hadvances => hm ((key_of_connectAsks hok).2.2 hadvances)

theorem Progress.receive (h : Progress moves s phase)
    (hserved : Served moves s.link s.host s.handler)
    (hasked : Asked (fun _ => connectAsks) moves s) (hlink : s.link.Step (.received t m) s'.link)
    (hsafe : (m.key = .iteration → phase = .waiting) ∧ (m.key = .reset → phase = .advancing))
    (hx : x.isReset = false) (hprogram : wp phases s'.device Resets ()
      (if m.key = .iteration then if atoi m.value = 0 then .first else .later
        else if m.key = .reset then .resetting else phase)) :
    ∃ phase', Progress (moves ++ [x]) s' phase' := by
  by_cases hiteration : m.key = .iteration
  · obtain rfl := hsafe.1 hiteration
    rw [if_pos hiteration] at hprogram
    have hvalue := h.iteration hserved hasked hlink.mem_toClient hiteration
    exact ⟨_, h.begin hserved.ordered hlink hvalue hx hprogram⟩
  rw [if_neg hiteration] at hprogram
  by_cases hreset : m.key = .reset
  · obtain rfl := hsafe.2 hreset
    rw [if_pos hreset] at hprogram
    exact ⟨_, h.answered hserved hlink hreset hx hprogram⟩
  · rw [if_neg hreset] at hprogram
    exact ⟨phase, h.same hserved.ordered hlink nofun hx hprogram⟩

/-- The step lemma. -/
theorem Progress.step (h : Progress moves s phase)
    (hserved : Served moves s.link s.host s.handler)
    (hasked : Asked (fun _ => connectAsks) moves s)
    (hstep : SetupStep (connectProgram timeout memory) s x s')
    (hx : ∀ image, x ≠ .reboot image) : ∃ phase', Progress (moves ++ [x]) s' phase' := by
  have hordered := hserved.ordered
  rcases hstep.device_cases with ⟨call, rfl, hproc, htalks, -⟩ | helse |
    ⟨hdevice, hlink, ⟨rfl, hreset, -⟩ | rfl⟩
  · obtain ⟨hsafe, hrest⟩ := wp_step h.program hproc
    have hask := (hasked.program.step hproc).2
    rcases htalks.cases with ⟨m, rfl, hlink⟩ | ⟨keys, m, t, rfl, hlink⟩ | ⟨hsilent, hsame⟩
    · exact h.send hordered hlink (hsafe _ rfl) (hask _ rfl) rfl hrest
    · exact h.receive hserved hasked hlink (hsafe _ rfl) rfl hrest
    · have hlink : s.link.Step .lost s'.link := hsame ▸ .still _
      refine ⟨phase, h.same hordered hlink nofun rfl ?_⟩
      rwa [after_silent fun e he => (unphased_frame phase e.1 e.2 (hsilent e he _ _)).2] at hrest
  · obtain ⟨e, hlink, hsent⟩ := helse.link
    refine ⟨phase, h.same hordered hlink (fun m hm => ?_) helse.isReset (helse.device ▸ h.program)⟩
    rw [(hsent m hm).1]
    rfl
  · exact ⟨_, h.reset hreset hlink (hdevice ▸ wp_connect_phases) rfl⟩
  · exact absurd rfl (hx _)

theorem progress_of_run (hrun : Run (SetupStep (connectProgram timeout memory))
      (.initial (connectProgram timeout memory)) moves s)
    (hno : ∀ image, .reboot image ∉ moves) : ∃ phase, Progress moves s phase := by
  induction hrun with
  | refl => exact ⟨.waiting, wp_connect_phases, rfl, .inl ⟨rfl, nofun⟩, nofun⟩
  | @snoc moves s x s' hrun hstep ih =>
    obtain ⟨phase, h⟩ := ih fun image hmem => hno image (List.mem_append_left _ hmem)
    refine h.step (served_of_run hrun) (asked_of_run (fun _ => asks_connect) hrun) hstep ?_
    rintro image rfl
    exact hno image (List.mem_append_right _ (List.mem_singleton_self _))

/-- Unless the board is reset from outside, the device asks to advance at most once and resets at
most once, and each iteration that it accepts is the number of resets before. -/
theorem iteration_of_run (hrun : Run (SetupStep (connectProgram timeout memory))
      (.initial (connectProgram timeout memory)) moves s)
    (hno : ∀ image, .reboot image ∉ moves) :
    s.link.requests.countP (·.key.advances) ≤ 1 ∧ resets moves ≤ 1 ∧
      ∀ before keys m later, moves = before ++ .device (some ⟨.parseKv keys, m⟩) :: later →
        m.1.key = .iteration → atoi m.1.value = resets before := by
  obtain ⟨phase, h⟩ := progress_of_run hrun hno
  have horder := h.order
  have hasked := h.asked
  refine ⟨?_, by omega, ?_⟩
  · rcases horder with ⟨hzero, -⟩ | ⟨hone, rfl | rfl⟩
    · cases phase <;> simp only [Phase.asked] at hasked <;> omega
    · simp only [Phase.asked] at hasked
      omega
    · simp only [Phase.asked] at hasked
      omega
  rintro before keys m later rfl hkey
  obtain ⟨t, t', hbefore, hstep, -⟩ := hrun.cut rfl
  obtain ⟨phase', h'⟩ := progress_of_run hbefore fun image hmem =>
    hno image (List.mem_append_left _ hmem)
  obtain ⟨hproc, htalks, -⟩ := hstep.device_step
  obtain ⟨n, hlink⟩ : ∃ n, t.link.Step (.received n m.1) t'.link := htalks
  obtain rfl := ((wp_step h'.program hproc).1 _ rfl).1 hkey
  exact h'.iteration (served_of_run hbefore) (asked_of_run (fun _ => asks_connect) hbefore)
    hlink.mem_toClient hkey

/-- The board is reset from outside. -/
def Move.isReboot : Move → Bool
  | .reboot _ => true
  | _ => false

/-- The device reads an iteration other than 0. -/
def Move.updated : Move → Bool
  | .device (some ⟨.parseKv _, m⟩) => m.1.key = .iteration ∧ atoi m.1.value ≠ 0
  | _ => false

theorem Move.exists_of_updated (h : x.updated = true) : ∃ keys m,
    x = .device (some ⟨.parseKv keys, m⟩) ∧ m.1.key = .iteration ∧ atoi m.1.value ≠ 0 := by
  unfold updated at h
  split at h
  · exact ⟨_, _, rfl, of_decide_eq_true h⟩
  · cases h

theorem iteration_of_run_calm : ∃ moves s, .device (some passed) ∈ moves ∧
    (Setup.link s).requests.countP (·.key.advances) ≤ 1 ∧ resets moves ≤ 1 ∧
    ∃ before keys m later, moves = before ++ .device (some ⟨.parseKv keys, m⟩) :: later ∧
      m.1.key = .iteration ∧ atoi m.1.value = resets before ∧ resets before ≠ 0 := by
  let schedule := drive (connectProgram 240 zeroed) 300 (.initial (connectProgram 240 zeroed))
  have hpass : .device (some passed) ∈ schedule.1 := mem_of_passes (by decide +kernel)
  have hcalm : ∀ x ∈ schedule.1, x.isReboot = false := by decide +kernel
  have hupdated : schedule.1.any Move.updated = true := by decide +kernel
  obtain ⟨hasked, hresets, haccepted⟩ :=
    iteration_of_run (run_drive 300 (.initial (connectProgram 240 zeroed))) fun image hmem =>
      nomatch hcalm _ hmem
  obtain ⟨x, hx, hx'⟩ := List.any_eq_true.mp hupdated
  obtain ⟨keys, m, rfl, hkey, hvalue⟩ := Move.exists_of_updated hx'
  obtain ⟨before, later, hmoves⟩ := List.append_of_mem hx
  have hequal := haccepted before keys m later hmoves hkey
  exact ⟨_, _, hpass, hasked, hresets, before, keys, m, later, hmoves, hkey, hequal,
    by omega⟩

end SimpleCloudClient.Bench
