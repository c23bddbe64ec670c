import SimpleCloudClient.Client.Attempts

/-!
# call_register and the thread of the cloud client

The application runs `call_register` step by step. From the moment setup has been entered the
thread of the cloud client may deliver events between any two of these steps. The call of setup
is its entry: an event that arrives while setup runs comes after that call.

The flag `_register_called` is written after setup, so an unregistered event that comes before the
write is overwritten by it.
-/
namespace SimpleCloudClient
open Procedure SimpleMbedCloudClient Transition

/-- The events that the thread of the cloud client delivers. -/
inductive Notice where
  | registered
  | unregistered
  deriving DecidableEq

def Notice.handler : Notice → ClientM Unit
  | registered => clientRegistered
  | unregistered => clientUnregistered

/-- The application is idle, or has the rest of a `call_register` to run. -/
structure Interleaved where
  entered : Bool := false
  running : Option (ClientM Bool) := none
  context : Context := {}

inductive Move where
  | start (accepted : Bool)
  | app (call : Option CloudEvent)
  | finish (result : Bool)
  | deliver (notice : Notice)

def IsSetup (e : CloudEvent) : Bool := e.1 = .setup

inductive InterleavedStep (cfg : Config) : Interleaved → Move → Interleaved → Prop where
  /-- The first step of the call is the check of the guard. -/
  | start {entered : Bool} {c : Context} {p : ClientM Bool}
      (h : Procedure.Step (callRegister cfg, c) none (p, c)) :
      InterleavedStep cfg ⟨entered, none, c⟩ (.start !c.self.registerCalled) ⟨entered, some p, c⟩
  | app {entered : Bool} {p q : ClientM Bool} {c d : Context} {call : Option CloudEvent}
      (h : Procedure.Step (p, c) call (q, d))
      (succeeds : ∀ setup, call = some ⟨.setup, setup⟩ → setup = true) :
      InterleavedStep cfg ⟨entered, some p, c⟩ (.app call)
        ⟨entered || call.any IsSetup, some q, d⟩
  | finish {entered : Bool} {c : Context} {result : Bool} :
      InterleavedStep cfg ⟨entered, some (.ret result), c⟩ (.finish result) ⟨entered, none, c⟩
  | deliver (notice : Notice) {running : Option (ClientM Bool)} {tr : List CloudEvent}
      {c d : Context} (h : Exec notice.handler c tr (.ok ()) d) :
      InterleavedStep cfg ⟨true, running, c⟩ (.deliver notice) ⟨true, running, d⟩

variable {cfg : Config} {c d : Context} {s s' : Interleaved} {moves : List Move} {move : Move}

/-- Steps of the rest of a call are steps of the application. -/
theorem run_app {entered : Bool} {p q : ClientM Bool} {calls : List (Option CloudEvent)}
    (h : Run Procedure.Step (p, c) calls (q, d))
    (succeeds : ∀ setup ∈ setups calls.reduceOption, setup = true) :
    Run (InterleavedStep cfg) ⟨entered, some p, c⟩ (calls.map .app)
      ⟨entered || calls.reduceOption.any IsSetup, some q, d⟩ := by
  generalize hend : (q, d) = last at h
  induction h generalizing q d with
  | refl =>
    cases hend
    simpa using Run.refl
  | @snoc calls last call _ hrun hstep ih =>
    subst hend
    obtain ⟨p', u⟩ := last
    simp only [List.reduceOption_append, setups_append, List.mem_append] at succeeds
    have happ : InterleavedStep cfg ⟨entered || calls.reduceOption.any IsSetup, some p', u⟩
        (.app call) _ :=
      .app hstep fun setup hcall =>
        succeeds setup (.inr (by subst hcall; exact List.mem_singleton_self setup))
    have hrest := (ih (fun setup hmem => succeeds setup (.inl hmem)) rfl).snoc happ
    cases call <;> simpa [List.reduceOption_append, Bool.or_assoc] using hrest

/-- A call that no event disturbs is an execution of `call_register`. -/
theorem run_alone {entered result : Bool} {tr : List CloudEvent}
    (h : Exec (callRegister cfg) c tr (.ok result) d)
    (succeeds : ∀ setup ∈ setups tr, setup = true) :
    ∃ calls : List (Option CloudEvent), calls.reduceOption = tr ∧
      Run (InterleavedStep cfg) ⟨entered, none, c⟩
        ((Move.start !c.self.registerCalled) :: calls.map .app ++ [.finish result])
        ⟨entered || tr.any IsSetup, none, d⟩ := by
  obtain ⟨calls, hrun, rfl⟩ := exec_iff_run.mp (exec_get_bind.mp h)
  refine ⟨calls, rfl, ?_⟩
  have hstart : InterleavedStep cfg ⟨entered, none, c⟩ _ _ := .start (.read _ c)
  exact ((Run.single hstart).append (run_app hrun succeeds)).snoc .finish

/-! ## What the schedule says -/

/-- The events since the last accepted `call_register` was started. -/
def notices (moves : List Move) : List Notice :=
  moves.foldl (fun past move => match move with
    | .start true => []
    | .deliver notice => past ++ [notice]
    | _ => past) []

/-- The events since `call_register` last wrote its flag, its only step that is no call. -/
def lateNotices (moves : List Move) : List Notice :=
  moves.foldl (fun past move => match move with
    | .app none => []
    | .deliver notice => past ++ [notice]
    | _ => past) []

/-- A `call_register` that is run now gets past its guard. -/
def Accepts (cfg : Config) (c : Context) : Prop :=
  ∀ tr o t, Exec (callRegister cfg) c tr o t → setups tr ≠ []

/-- While no `call_register` is in progress the flags agree with the last event. -/
def FlagsFollow (cfg : Config) (moves : List Move) (s : Interleaved) : Prop :=
  s.running = none → match (notices moves).getLast? with
    | none => True
    | some .registered =>
      s.context.self.registered = true ∧ s.context.self.registerCalled = true
    | some .unregistered =>
      s.context.self.registered = false ∧ s.context.self.registerCalled = false ∧
        Accepts cfg s.context

/-- If the last event is unregistered, it came after the flag was written; if it is registered, no
unregistered event came between the write of the flag and it. -/
def Timely (moves : List Move) : Prop :=
  match (notices moves).getLast? with
  | none => True
  | some .registered => .unregistered ∉ lateNotices moves
  | some .unregistered => lateNotices moves ≠ []

/-- The step leaves no `call_register` in progress. -/
def LeavesIdle (s : Interleaved) : Move → Prop
  | .finish _ => True
  | .deliver _ => s.running = none
  | _ => False

/-- The schedule is timely wherever no `call_register` is in progress. -/
def TimelyWhenIdle (moves : List Move) (s : Interleaved) (move : Move) : Prop :=
  LeavesIdle s move → Timely (moves ++ [move])

@[simp] theorem notices_start (accepted : Bool) :
    notices (moves ++ [.start accepted]) = if accepted then [] else notices moves := by
  cases accepted <;> simp [notices]

@[simp] theorem notices_app (call : Option CloudEvent) :
    notices (moves ++ [.app call]) = notices moves := by simp [notices]

@[simp] theorem notices_finish (result : Bool) :
    notices (moves ++ [.finish result]) = notices moves := by simp [notices]

@[simp] theorem notices_deliver (notice : Notice) :
    notices (moves ++ [.deliver notice]) = notices moves ++ [notice] := by simp [notices]

@[simp] theorem lateNotices_start (accepted : Bool) :
    lateNotices (moves ++ [.start accepted]) = lateNotices moves := by simp [lateNotices]

@[simp] theorem lateNotices_app (call : Option CloudEvent) :
    lateNotices (moves ++ [.app call]) = if call.isNone then [] else lateNotices moves := by
  cases call <;> simp [lateNotices]

@[simp] theorem lateNotices_finish (result : Bool) :
    lateNotices (moves ++ [.finish result]) = lateNotices moves := by simp [lateNotices]

@[simp] theorem lateNotices_deliver (notice : Notice) :
    lateNotices (moves ++ [.deliver notice]) = lateNotices moves ++ [notice] := by
  simp [lateNotices]

theorem accepts_iff : Accepts cfg c ↔ c.self.registerCalled = false := by
  cases hcalled : c.self.registerCalled with
  | true =>
    refine iff_of_false (fun h => ?_) nofun
    exact h [] (.ok false) c (exec_callRegister.mpr (.inl ⟨hcalled, rfl, rfl, rfl⟩)) rfl
  | false =>
    refine iff_of_true (fun tr o t h => ?_) rfl
    rcases exec_callRegister.mp h with ⟨hold, -⟩ | ⟨-, setup, rfl, -, -⟩
    · rw [hcalled] at hold
      cases hold
    · simp

/-! ## The rest of a call -/

/-- Calls remain. -/
def AfterWrite : ClientM Bool → Prop
  | .ret _ => True
  | .call _ next => ∀ r, AfterWrite (next r)
  | _ => False

/-- The flag is still to be written, with calls before and after. -/
def BeforeWrite : ClientM Bool → Prop
  | .call _ next => ∀ r, BeforeWrite (next r)
  | .modify f next => f = Context.withRegisterCalled ∧ AfterWrite next
  | _ => False

/-- Past its guard, `call_register` writes the flag once. -/
theorem step_callRegister {call : Option CloudEvent} {p : ClientM Bool}
    (h : Procedure.Step (callRegister cfg, c) call (p, d)) :
    call = none ∧ d = c ∧ (c.self.registerCalled = true ∧ p = .ret false ∨
      c.self.registerCalled = false ∧ BeforeWrite p) := by
  cases h
  refine ⟨rfl, rfl, ?_⟩
  cases hcalled : c.self.registerCalled with
  | true => exact .inl ⟨rfl, if_pos hcalled⟩
  | false =>
    refine .inr ⟨rfl, ?_⟩
    change BeforeWrite (ite (c.self.registerCalled = true) _ _)
    rw [if_neg (by simp [hcalled])]
    intro _ _ _ setup
    refine ⟨rfl, ?_⟩
    cases setup with
    | false => trivial
    | true =>
      change AfterWrite (ite (cfg.supportUpdate = true) _ _)
      split
      · exact fun _ _ _ => trivial
      · trivial

theorem AfterWrite.step {p q : ClientM Bool} {call : Option CloudEvent} (h : AfterWrite p)
    (hstep : Procedure.Step (p, c) call (q, d)) : AfterWrite q ∧ d = c ∧ call ≠ none := by
  cases hstep with
  | read => exact h.elim
  | modify => exact h.elim
  | call _ _ _ r => exact ⟨h r, rfl, nofun⟩

theorem BeforeWrite.step {p q : ClientM Bool} {call : Option CloudEvent} (h : BeforeWrite p)
    (hstep : Procedure.Step (p, c) call (q, d)) :
    (BeforeWrite q ∧ d = c ∧ call ≠ none) ∨
      (AfterWrite q ∧ d = c.withRegisterCalled ∧ call = none) := by
  cases hstep with
  | read => exact h.elim
  | modify => exact .inr ⟨h.2, by rw [h.1], rfl⟩
  | call _ _ _ r => exact .inl ⟨h r, rfl, nofun⟩

/-! ## The invariant -/

/-- The flags after a write: the later events are the last ones of the schedule, and the flag is
set unless one of them was unregistered. -/
def Written (moves : List Move) (c : Context) : Prop :=
  lateNotices moves <:+ notices moves ∧
    (c.self.registerCalled = true ↔ .unregistered ∉ lateNotices moves)

/-- Nothing has happened yet, or the flag has been written by the last accepted call. -/
def Settled (moves : List Move) (s : Interleaved) : Prop :=
  s.entered = false ∧ notices moves = [] ∨ Written moves s.context

structure Schedule (moves : List Move) (s : Interleaved) : Prop where
  last : ∀ notice, (notices moves).getLast? = some notice →
    (s.context.self.registered = true ↔ notice = .registered)
  phase : match s.running with
    | none => Settled moves s
    | some p =>
      BeforeWrite p ∨ AfterWrite p ∧ Written moves s.context ∨ p = .ret false ∧ Settled moves s

theorem exec_handler {notice : Notice} {tr : List CloudEvent}
    (h : Exec notice.handler c tr (.ok ()) d) :
    (d.self.registered = true ↔ notice = .registered) ∧
      (d.self.registerCalled = true ↔
        c.self.registerCalled = true ∧ notice ≠ .unregistered) := by
  cases notice with
  | registered =>
    obtain ⟨reply, -, -, rfl⟩ := exec_clientRegistered.mp h
    simp [Context.withRegistered]
  | unregistered =>
    obtain ⟨-, -, rfl⟩ := exec_clientUnregistered.mp h
    simp [Context.withUnregistered]

theorem Written.deliver {notice : Notice} {tr : List CloudEvent} (h : Written moves c)
    (hevent : Exec notice.handler c tr (.ok ()) d) :
    Written (moves ++ [.deliver notice]) d := by
  obtain ⟨⟨early, hearly⟩, hflag⟩ := h
  refine ⟨⟨early, by simp [← hearly]⟩, ?_⟩
  rw [(exec_handler hevent).2, hflag]
  simp [not_or, eq_comm]

theorem Settled.deliver {notice : Notice} {tr : List CloudEvent} {running : Option (ClientM Bool)}
    (h : Settled moves ⟨true, running, c⟩) (hevent : Exec notice.handler c tr (.ok ()) d) :
    Settled (moves ++ [.deliver notice]) ⟨true, running, d⟩ := by
  rcases h with ⟨hentered, -⟩ | hwritten
  · cases hentered
  · exact .inr (hwritten.deliver hevent)

theorem Schedule.step (h : Schedule moves s) (hstep : InterleavedStep cfg s move s') :
    Schedule (moves ++ [move]) s' := by
  obtain ⟨hlast, hphase⟩ := h
  cases hstep with
  | start hguard =>
    obtain ⟨-, -, ⟨hcalled, rfl⟩ | ⟨hfree, hp⟩⟩ := step_callRegister hguard
    · refine ⟨by simpa [hcalled] using hlast, .inr (.inr ⟨rfl, ?_⟩)⟩
      simpa [Settled, Written, hcalled] using hphase
    · exact ⟨by simp [hfree], .inl hp⟩
  | @app entered p q c d call happ =>
    rcases hphase with hbefore | ⟨hafter, hwritten⟩ | ⟨rfl, -⟩
    · rcases hbefore.step happ with ⟨hq, rfl, hcall⟩ | ⟨hq, rfl, rfl⟩
      · exact ⟨by simpa using hlast, .inl hq⟩
      · refine ⟨by simpa [Context.withRegisterCalled] using hlast, .inr (.inl ⟨hq, ?_⟩)⟩
        simp [Written, Context.withRegisterCalled]
    · obtain ⟨hq, rfl, hcall⟩ := hafter.step happ
      refine ⟨by simpa using hlast, .inr (.inl ⟨hq, ?_⟩)⟩
      simpa [Written, hcall] using hwritten
    · cases happ
  | finish =>
    refine ⟨by simpa using hlast, ?_⟩
    rcases hphase with hbefore | ⟨-, hwritten⟩ | ⟨-, hsettled⟩
    · exact hbefore.elim
    · exact .inr (by simpa [Written] using hwritten)
    · simpa [Settled, Written] using hsettled
  | @deliver notice running tr c d hevent =>
    refine ⟨fun x hx => ?_, ?_⟩
    · obtain rfl : notice = x := by simpa using hx
      exact (exec_handler hevent).1
    · cases running with
      | none => exact Settled.deliver hphase hevent
      | some p =>
        rcases hphase with hbefore | ⟨hafter, hwritten⟩ | ⟨hp, hsettled⟩
        · exact .inl hbefore
        · exact .inr (.inl ⟨hafter, hwritten.deliver hevent⟩)
        · exact .inr (.inr ⟨hp, hsettled.deliver hevent⟩)

/-- While no call is in progress, the flags follow the last event exactly if it was timely. -/
theorem Schedule.follow_iff_timely (h : Schedule moves s) :
    FlagsFollow cfg moves s ↔ (s.running = none → Timely moves) := by
  refine forall_congr' fun hidle => ?_
  obtain ⟨hlast, hphase⟩ := h
  rw [hidle] at hphase
  unfold Timely
  rcases hphase with ⟨-, hnil⟩ | ⟨⟨early, hearly⟩, hflag⟩
  · simp [hnil]
  · cases hnotice : (notices moves).getLast? with
    | none => rfl
    | some notice =>
      have hregistered := hlast notice hnotice
      cases notice with
      | registered => simp [hregistered, hflag]
      | unregistered =>
        have hmem : .unregistered ∈ lateNotices moves ↔ lateNotices moves ≠ [] := by
          refine ⟨List.ne_nil_of_mem, fun hne => ?_⟩
          rw [← hearly, List.getLast?_append_of_ne_nil _ hne] at hnotice
          exact List.mem_of_getLast? hnotice
        simp only [accepts_iff, and_self, ← hmem]
        have : s.context.self.registered = false := by simpa using hregistered
        simp [this, ← Bool.not_eq_true, hflag]

/-- In the interleavings in which the events are timely whenever no `call_register` is in
progress, and in no others, the flags always follow the last event. -/
theorem flagsFollow_iff :
    RunWhen (InterleavedStep cfg) TimelyWhenIdle ⟨false, none, c⟩ moves s ↔
      RunAlong (InterleavedStep cfg) (FlagsFollow cfg) ⟨false, none, c⟩ moves s := by
  refine runWhen_iff_runAlong Schedule ⟨by simp [notices], .inl ⟨rfl, rfl⟩⟩ (fun _ => trivial)
    (fun _ _ _ _ h _ hstep => h.step hstep) fun moves s move s' h hgood hstep => ?_
  rw [(h.step hstep).follow_iff_timely]
  cases hstep <;> simp [TimelyWhenIdle, LeavesIdle]

/-- An unregistered event that arrives while setup runs leaves the flag set. -/
theorem not_flagsFollow_early : ∃ moves s, Run (InterleavedStep .reference) {} moves s ∧
    s.running = none ∧ notices moves = [.registered, .unregistered] ∧
    s.context.self.registerCalled = true ∧ ¬FlagsFollow .reference moves s := by
  have hguard : Procedure.Step (callRegister .reference, ({} : Context)) none (_, {}) := .read _ _
  have hstart : Run (InterleavedStep .reference) {} [.start true] _ := .single (.start hguard)
  have hsetup := (((hstart.snoc (.app (.call _ _ _ ()) nofun)).snoc
    (.app (.call _ _ _ ()) nofun)).snoc (.app (.call _ _ _ ()) nofun)).snoc
    (.app (.call _ _ _ true) fun setup h => by cases h; rfl)
  have hevents := (hsetup.snoc (.deliver .registered
    (exec_clientRegistered.mpr ⟨none, rfl, rfl, rfl⟩))).snoc
    (.deliver .unregistered (exec_clientUnregistered.mpr ⟨rfl, rfl, rfl⟩))
  have hwritten := hevents.snoc (.app (.modify _ _ _) nofun)
  have hend := (((hwritten.snoc (.app (.call _ _ _ ()) nofun)).snoc
    (.app (.call _ _ _ ()) nofun)).snoc (.app (.call _ _ _ ()) nofun)).snoc .finish
  exact ⟨_, _, hend, rfl, rfl, rfl, fun h => nomatch (h rfl).2.1⟩

end SimpleCloudClient
