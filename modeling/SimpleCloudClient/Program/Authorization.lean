import SimpleCloudClient.Library.Threads
import SimpleCloudClient.Update.Authorize
import SimpleCloudClient.Client.Delivery
import Mathlib.Data.List.DropRight

/-!
# Update requests while clients register

Threads run operations of the clients of a program, several on one client if need be, and cloud
clients ask their handlers for authorization at any moment. Every call and every access to memory
is a step of its own. The handler that `call_register` installs answers whichever client the
update helper was told of last.
-/
namespace SimpleCloudClient
open Procedure SimpleMbedCloudClient Transition Update

structure Program where
  world : World := {}
  /-- The static variable `_client` of the update helper. -/
  helper : Option Nat := none
  /-- The authorize handler that each cloud client holds. -/
  handler : Nat → Option UpdateHandler := fun _ => none
  /-- What is left of the operation of each thread, and its client. -/
  threads : Nat → Option (Nat × ClientM (Option Bool)) := fun _ => none
  /-- What is left of the built-in handler of each client that has asked it. -/
  asking : Nat → Option (HelperM Unit) := fun _ => none

/-- The cloud client and the update helper keep what a call of `client` gives them. -/
def Program.receive (s : Program) (client : Nat) : Option CloudEvent → Program
  | some ⟨.command .updateHelperSetCloudClient, _⟩ => { s with helper := some client }
  | some ⟨.command (.setUpdateAuthorizeHandler handler), _⟩ =>
    { s with handler := Function.update s.handler client (some handler) }
  | _ => s

inductive ProgramMove where
  | start (thread client : Nat) (op : Operation)
  | act (thread client : Nat) (call : Option CloudEvent)
  | finish (thread : Nat)
  | ask (client : Nat) (request : Int32)
  | handle (client : Nat) (call : Option HelperEvent)
  | handled (client : Nat)

inductive ProgramStep (cfg : Config) (requests : Requests) :
    Program → ProgramMove → Program → Prop
  | start {s : Program} {thread : Nat} (client : Nat) (op : Operation) :
      s.threads thread = none →
      ProgramStep cfg requests s (.start thread client op)
        { s with threads := Function.update s.threads thread (some (client, op.body cfg)) }
  | act {s : Program} {thread client : Nat} {p q : ClientM (Option Bool)} {c : Context}
      {call : Option CloudEvent} : s.threads thread = some (client, p) →
      Procedure.Step (p, s.world.context client) call (q, c) →
      ProgramStep cfg requests s (.act thread client call)
        ({ s with
          world := s.world.put client c
          threads := Function.update s.threads thread (some (client, q)) }.receive client call)
  | finish {s : Program} {thread client : Nat} {result : Option Bool} :
      s.threads thread = some (client, .ret result) →
      ProgramStep cfg requests s (.finish thread)
        { s with threads := Function.update s.threads thread none }
  /-- A cloud client asks the built-in handler, if that is the one it holds. -/
  | ask {s : Program} {client : Nat} (request : Int32) :
      s.handler client = some .builtin → s.asking client = none →
      ProgramStep cfg requests s (.ask client request)
        { s with
          asking := Function.update s.asking client (some (updateAuthorize requests request)) }
  | handle {s : Program} {client : Nat} {p q : HelperM Unit} {call : Option HelperEvent} :
      s.asking client = some p → Procedure.Step (p, s.helper) call (q, s.helper) →
      ProgramStep cfg requests s (.handle client call)
        { s with asking := Function.update s.asking client (some q) }
  | handled {s : Program} {client : Nat} : s.asking client = some (.ret ()) →
      ProgramStep cfg requests s (.handled client)
        { s with asking := Function.update s.asking client none }

variable {cfg : Config} {requests : Requests} {s s' : Program} {moves : List ProgramMove}
variable {move : ProgramMove}

/-! ## call_register announces the client before it installs the handler -/

def IsAnnouncement (c : CloudCall) : Prop := c = .command .updateHelperSetCloudClient

def InstallsBuiltin (c : CloudCall) : Prop := c = .command (.setUpdateAuthorizeHandler .builtin)

/-- The obligation of everything a thread has left to do. -/
abbrev Announces {A : Type} (p : ClientM A) : Prop := OnlyAfter IsAnnouncement InstallsBuiltin p

section Announces

theorem Announces.quiet {A : Type} {p : ClientM A} (h : Calls (fun c => ¬InstallsBuiltin c) p) :
    Announces p := h.onlyAfter

theorem announces_command {c : Command} (h : c ≠ .setUpdateAuthorizeHandler .builtin) :
    Announces (command c) :=
  Announces.quiet (Calls.perform fun hc => h (CloudCall.command.inj hc))

theorem announces_setSelf {f : SimpleMbedCloudClient → SimpleMbedCloudClient} :
    Announces (setSelf f) := trivial

theorem announces_deref {A : Type} {fault : Fault} {x : Option A} :
    Announces (deref fault x : ClientM A) := Announces.quiet Calls.deref

theorem announces_callRegister : Announces (callRegister cfg) := by
  refine OnlyAfter.get_bind fun c => OnlyAfter.ite trivial ?_
  refine (announces_command (by nofun)).bind fun _ => (announces_command (by nofun)).bind fun _ =>
    (announces_command (by nofun)).bind fun _ => ?_
  refine (Announces.quiet (Calls.perform (by nofun))).bind fun setup => ?_
  refine announces_setSelf.bind fun _ => OnlyAfter.ite trivial (OnlyAfter.ite ?_ trivial)
  exact OnlyAfter.early_bind rfl

theorem announces_registerResources (m : MbedClient) (todo i : Nat) (d : MccResourceDef) :
    Announces (registerResources m todo i d) := by
  induction todo generalizing i d with
  | zero => exact trivial
  | succ todo ih =>
    refine OnlyAfter.get_bind fun c => announces_deref.bind fun resource => ?_
    refine (announces_command (by nofun)).bind fun _ => announces_deref.bind fun result => ?_
    exact ih _ _

theorem announces_registerAndConnect (memory : MccResourceDef) :
    Announces (registerAndConnect cfg memory) := by
  refine OnlyAfter.get_bind fun c => OnlyAfter.ite trivial ?_
  refine (announces_registerResources _ _ _ _).bind fun _ => OnlyAfter.get_bind fun c => ?_
  exact (announces_command (by nofun)).bind fun _ => announces_setSelf.bind fun _ =>
    announces_callRegister

theorem announces_clientRegistered : Announces clientRegistered := by
  refine announces_setSelf.bind fun _ => OnlyAfter.get_bind fun c => OnlyAfter.ite ?_ trivial
  refine (Announces.quiet (Calls.perform (by nofun))).bind fun endpoint => ?_
  change Announces (_ : ClientM Unit)
  split
  · exact announces_command (by nofun)
  · trivial

theorem announces_clientUnregistered : Announces clientUnregistered := by
  refine announces_setSelf.bind fun _ => OnlyAfter.get_bind fun c => ?_
  split
  · exact announces_command (by nofun)
  · trivial

/-- The events of an M2M resource make no call but that of a callback. -/
theorem announces_dispatch {res : Memory.Ref M2MResource}
    {select : M2MResource → Option InternalCallback} {internal : Nat → ClientM Unit}
    (h : ∀ k, Announces (internal k)) : Announces (dispatch res select internal) := by
  refine OnlyAfter.get_bind fun c => ?_
  split
  · exact h _
  · trivial

theorem announces_boundResource (i : Nat) : Announces (boundResource i) :=
  OnlyAfter.get_bind fun _ => announces_deref.bind fun _ => announces_deref

/-- Every operation of a client keeps the order. -/
theorem announces_body (op : Operation) : Announces (op.body cfg) := by
  cases op with
  | registerAndConnect memory => exact (announces_registerAndConnect memory).bind fun _ => trivial
  | callRegister => exact announces_callRegister.bind fun _ => trivial
  | clientRegistered => exact announces_clientRegistered.bind fun _ => trivial
  | clientUnregistered => exact announces_clientUnregistered.bind fun _ => trivial
  | onRegistered | onUnregistered | createResource => exact announces_setSelf.bind fun _ => trivial
  | onUpdateAuthorized | onUpdateProgress =>
    exact (announces_command (by nofun)).bind fun _ => trivial
  | changeResource i change =>
    refine OnlyAfter.bind ?_ fun _ => trivial
    exact OnlyAfter.get_bind fun _ => announces_deref.bind fun _ => trivial
  | cloudWrite i value =>
    refine OnlyAfter.bind ((announces_boundResource i).bind fun res => ?_) fun _ => trivial
    refine announces_dispatch fun k => OnlyAfter.get_bind fun c => announces_deref.bind fun r => ?_
    split
    · exact announces_command (by nofun)
    · trivial
  | cloudExecute i params =>
    refine OnlyAfter.bind ((announces_boundResource i).bind fun res => ?_) fun _ => trivial
    refine announces_dispatch fun k => OnlyAfter.get_bind fun c => announces_deref.bind fun r => ?_
    split
    · exact announces_command (by nofun)
    · trivial
  | cloudNotification i status =>
    refine OnlyAfter.bind ((announces_boundResource i).bind fun res => ?_) fun _ => trivial
    refine announces_dispatch fun k => OnlyAfter.get_bind fun c => announces_deref.bind fun r => ?_
    split
    · exact announces_command (by nofun)
    · trivial

end Announces

/-! ## What the moves say -/

/-- The client that a move announces to the update helper. -/
def announces : ProgramMove → Option Nat
  | .act _ client (some ⟨.command .updateHelperSetCloudClient, _⟩) => some client
  | _ => none

/-- The client announced last. -/
def announced (moves : List ProgramMove) : Option Nat := (moves.filterMap announces).getLast?

/-- The handler of the client reads `_client`, its only step that is no call. -/
def Looks (client : Nat) : ProgramMove → Bool
  | .handle k none => k = client
  | _ => false

/-- The client that was announced when the handler of `client` looked last. -/
def seen (client : Nat) (moves : List ProgramMove) : Option Nat :=
  announced (moves.rdropWhile fun move => !Looks client move)

def asks (client : Nat) : ProgramMove → Option Int32
  | .ask k request => if k = client then some request else none
  | _ => none

/-- The last request of the client. -/
def asked (client : Nat) (moves : List ProgramMove) : Option Int32 :=
  (moves.filterMap (asks client)).getLast?

def grants (client : Nat) : ProgramMove → Option (Nat × Int32)
  | .handle k (some e) => if k = client then granted e else none
  | _ => none

/-- The grants that the handler of the client has made since the last request. -/
def answers (client : Nat) (moves : List ProgramMove) : List (Nat × Int32) :=
  (moves.rtakeWhile fun move => (asks client move).isNone).filterMap (grants client)

section
variable (client : Nat)

theorem announced_concat :
    announced (moves ++ [move]) = (announces move).or (announced moves) := by
  cases h : announces move <;> simp [announced, List.filterMap_append, h]

theorem announces_of_looks (h : Looks client move = true) : announces move = none := by
  cases move with
  | handle k call => rfl
  | _ => cases h

theorem seen_concat : seen client (moves ++ [move]) =
    if Looks client move then announced moves else seen client moves := by
  unfold seen
  by_cases h : Looks client move = true
  · rw [List.rdropWhile_concat_neg _ _ _ (by simp [h]), announced_concat,
      announces_of_looks client h, if_pos h]
    rfl
  · rw [List.rdropWhile_concat_pos _ _ _ (by simp [h]), if_neg h]

theorem asked_concat : asked client (moves ++ [move]) =
    (asks client move).or (asked client moves) := by
  cases h : asks client move <;> simp [asked, List.filterMap_append, h]

theorem answers_concat : answers client (moves ++ [move]) =
    if (asks client move).isSome then []
    else answers client moves ++ (grants client move).toList := by
  unfold answers
  cases h : asks client move with
  | some request => rw [List.rtakeWhile_concat_neg _ _ _ (by simp [h])]; rfl
  | none =>
    rw [List.rtakeWhile_concat_pos _ _ _ (by simp [h])]
    cases hgrant : grants client move <;> simp [List.filterMap_append, hgrant]

end

/-! ## The invariant -/

theorem update_cases {A : Type} {f : Nat → A} {i j : Nat} {a b : A}
    (h : Function.update f i a j = b) : j = i ∧ a = b ∨ j ≠ i ∧ f j = b := by
  by_cases hij : j = i
  · subst hij
    exact .inl ⟨rfl, by simpa using h⟩
  · exact .inr ⟨hij, by simpa [hij] using h⟩

structure Authorized (requests : Requests) (moves : List ProgramMove) (s : Program) : Prop where
  helper : s.helper = announced moves
  installed : ∀ client, s.handler client = some .builtin → s.helper ≠ none
  pending : ∀ {thread client p}, s.threads thread = some (client, p) →
    s.helper ≠ none ∨ Announces p
  asking : ∀ {client p}, s.asking client = some p → s.helper ≠ none ∧ ∃ request,
    asked client moves = some request ∧
    Rest requests request (seen client moves) (answers client moves) p

section Receive
variable {client : Nat} {call : Option CloudEvent}

@[simp] theorem receive_world : (s.receive client call).world = s.world := by
  unfold Program.receive; split <;> rfl

@[simp] theorem receive_threads : (s.receive client call).threads = s.threads := by
  unfold Program.receive; split <;> rfl

@[simp] theorem receive_asking : (s.receive client call).asking = s.asking := by
  unfold Program.receive; split <;> rfl

theorem receive_helper (thread : Nat) : (s.receive client call).helper =
    (announces (.act thread client call)).or s.helper := by
  cases call with
  | none => rfl
  | some e =>
    obtain ⟨c, reply⟩ := e
    cases c with
    | command cmd => cases cmd <;> rfl
    | setup | endpointInfo => rfl

/-- The built-in handler is installed by the call that does so and by nothing else. -/
theorem receive_handler {k : Nat} (h : (s.receive client call).handler k = some .builtin) :
    s.handler k = some .builtin ∨ ∃ e, call = some e ∧ InstallsBuiltin e.1 := by
  unfold Program.receive at h
  split at h
  · exact .inl h
  · rcases update_cases h with ⟨rfl, hset⟩ | ⟨-, hold⟩
    · obtain rfl := Option.some.inj hset
      exact .inr ⟨_, rfl, rfl⟩
    · exact .inl hold
  · exact .inl h

theorem receive_helper_ne_none (h : s.helper ≠ none) : (s.receive client call).helper ≠ none := by
  rw [receive_helper 0]
  cases announces (.act 0 client call) with
  | none => exact h
  | some announced => exact nofun

theorem announces_of_announcement {thread : Nat} {e : CloudEvent} (h : IsAnnouncement e.1) :
    announces (.act thread client (some e)) = some client := by
  obtain ⟨c, reply⟩ := e
  obtain rfl := h
  rfl

end Receive

/-- A step of a thread leads to the handler only by way of the helper. -/
theorem Authorized.act (h : Authorized requests moves s) {thread client : Nat}
    {p q : ClientM (Option Bool)} {c : Context} {call : Option CloudEvent}
    (hp : s.threads thread = some (client, p))
    (hstep : Procedure.Step (p, s.world.context client) call (q, c)) :
    Authorized requests (moves ++ [.act thread client call])
      ({ s with
        world := s.world.put client c
        threads := Function.update s.threads thread (some (client, q)) }.receive client call) := by
  set s₁ : Program := { s with
    world := s.world.put client c
    threads := Function.update s.threads thread (some (client, q)) }
  have hrest : (s₁.receive client call).helper ≠ none ∨
      (∀ e, call = some e → ¬InstallsBuiltin e.1) ∧ Announces q := by
    rcases h.pending hp with hsome | hannounces
    · exact .inl (receive_helper_ne_none hsome)
    · rcases hannounces.step hstep with ⟨e, rfl, hearly⟩ | hquiet
      · refine .inl ?_
        rw [receive_helper thread, announces_of_announcement hearly]
        exact nofun
      · exact .inr hquiet
  refine ⟨?_, fun k hk => ?_, fun {t k p'} ht => ?_, fun {k p'} hk => ?_⟩
  · rw [receive_helper thread, announced_concat, ← h.helper]
  · rcases receive_handler hk with hold | ⟨e, he, hinstall⟩
    · exact receive_helper_ne_none (h.installed k hold)
    · rcases hrest with hsome | ⟨hquiet, -⟩
      · exact hsome
      · exact absurd hinstall (hquiet e he)
  · rw [receive_threads] at ht
    rcases update_cases ht with ⟨rfl, hset⟩ | ⟨-, hold⟩
    · cases hset
      exact hrest.imp_right And.right
    · exact (h.pending hold).imp_left receive_helper_ne_none
  · rw [receive_asking] at hk
    obtain ⟨hsome, request, hasked, hrequest⟩ := h.asking hk
    refine ⟨receive_helper_ne_none hsome, request, ?_, ?_⟩
    · rw [asked_concat]
      exact hasked
    · rw [seen_concat, answers_concat]
      simpa [Looks, asks, SimpleCloudClient.grants] using hrequest

/-- A move that the helper and the handlers do not notice. -/
theorem Authorized.of_quiet (h : Authorized requests moves s) (hannounces : announces move = none)
    (hlooks : ∀ k, Looks k move = false) (hasks : ∀ k, asks k move = none)
    (hgrants : ∀ k, grants k move = none) (hhelper : s'.helper = s.helper)
    (hhandler : s'.handler = s.handler)
    (hthreads : ∀ t k p, s'.threads t = some (k, p) → s.threads t = some (k, p) ∨ Announces p)
    (hasking : ∀ k p, s'.asking k = some p → s.asking k = some p) :
    Authorized requests (moves ++ [move]) s' where
  helper := by rw [announced_concat, hannounces, hhelper, h.helper]; rfl
  installed client hbuiltin := by
    rw [hhandler] at hbuiltin
    rw [hhelper]
    exact h.installed client hbuiltin
  pending ht := by
    rw [hhelper]
    rcases hthreads _ _ _ ht with hold | hnew
    · exact h.pending hold
    · exact .inr hnew
  asking hp := by
    obtain ⟨hsome, request, hasked, hrest⟩ := h.asking (hasking _ _ hp)
    refine ⟨by rwa [hhelper], request, ?_, ?_⟩
    · rw [asked_concat, hasks, Option.none_or]
      exact hasked
    · simpa [seen_concat, answers_concat, hlooks, hasks, hgrants] using hrest

/-- A step of a handler, which reads `_client` or makes a call. -/
theorem Authorized.handle (h : Authorized requests moves s) {client : Nat} {p q : HelperM Unit}
    {call : Option HelperEvent} (hp : s.asking client = some p)
    (hstep : Procedure.Step (p, s.helper) call (q, s.helper)) :
    Authorized requests (moves ++ [.handle client call])
      { s with asking := Function.update s.asking client (some q) } := by
  obtain ⟨hsome, request, hasked, hrest⟩ := h.asking hp
  obtain ⟨target, htarget⟩ := Option.ne_none_iff_exists'.mp hsome
  rw [htarget] at hstep
  have hlast := (hrest.step hstep).2
  have hhelper : announced (moves ++ [.handle client call]) = s.helper :=
    announced_concat.trans h.helper.symm
  refine ⟨hhelper.symm, h.installed, h.pending, fun {k p'} hk => ⟨hsome, ?_⟩⟩
  rcases update_cases hk with ⟨rfl, hset⟩ | ⟨hne, hold⟩
  · obtain rfl := Option.some.inj hset
    refine ⟨request, (asked_concat k).trans hasked, ?_⟩
    rw [seen_concat, answers_concat, ← h.helper, htarget]
    cases call with
    | none => simpa [Looks, asks, SimpleCloudClient.grants] using hlast
    | some e => simpa [Looks, asks, SimpleCloudClient.grants] using hlast
  · obtain ⟨-, request', hasked', hrest'⟩ := h.asking hold
    refine ⟨request', (asked_concat k).trans hasked', ?_⟩
    rw [seen_concat, answers_concat]
    cases call with
    | none => simpa [Looks, asks, SimpleCloudClient.grants, Ne.symm hne] using hrest'
    | some e => simpa [Looks, asks, SimpleCloudClient.grants, Ne.symm hne] using hrest'

/-- A request reaches a handler that was installed after the helper was told of a client. -/
theorem Authorized.ask (h : Authorized requests moves s) {client : Nat} (request : Int32)
    (hbuiltin : s.handler client = some .builtin) :
    Authorized requests (moves ++ [.ask client request])
      { s with
        asking := Function.update s.asking client (some (updateAuthorize requests request)) } := by
  have hhelper : announced (moves ++ [.ask client request]) = s.helper :=
    announced_concat.trans h.helper.symm
  refine ⟨hhelper.symm, h.installed, h.pending, fun {k p} hk => ?_⟩
  refine ⟨h.installed client hbuiltin, ?_⟩
  rcases update_cases hk with ⟨rfl, hset⟩ | ⟨hne, hold⟩
  · obtain rfl := Option.some.inj hset
    refine ⟨request, by simp [asked_concat, asks], ?_⟩
    simpa [answers_concat, asks] using rest_updateAuthorize
  · obtain ⟨-, request', hasked', hrest'⟩ := h.asking hold
    refine ⟨request', by simpa [asked_concat, asks, Ne.symm hne] using hasked', ?_⟩
    simpa [seen_concat, answers_concat, Looks, asks, SimpleCloudClient.grants, Ne.symm hne]
      using hrest'

theorem Authorized.step (h : Authorized requests moves s)
    (hstep : ProgramStep cfg requests s move s') : Authorized requests (moves ++ [move]) s' := by
  cases hstep with
  | start client op hidle =>
    refine h.of_quiet rfl (fun _ => rfl) (fun _ => rfl) (fun _ => rfl) rfl rfl
      (fun t k p ht => ?_) fun _ _ hp => hp
    rcases update_cases ht with ⟨-, hset⟩ | ⟨-, hold⟩
    · cases hset
      exact .inr (announces_body op)
    · exact .inl hold
  | act hp hstep => exact h.act hp hstep
  | finish hp =>
    refine h.of_quiet rfl (fun _ => rfl) (fun _ => rfl) (fun _ => rfl) rfl rfl
      (fun t k p ht => ?_) fun _ _ hp => hp
    rcases update_cases ht with ⟨-, hset⟩ | ⟨-, hold⟩
    · cases hset
    · exact .inl hold
  | ask request hbuiltin hidle => exact h.ask request hbuiltin
  | handle hp hstep => exact h.handle hp hstep
  | handled hp =>
    refine h.of_quiet rfl (fun _ => rfl) (fun _ => rfl) (fun _ => rfl) rfl rfl
      (fun _ _ _ ht => .inl ht) fun k p hk => ?_
    rcases update_cases hk with ⟨-, hset⟩ | ⟨-, hold⟩
    · cases hset
    · exact hold

theorem authorized_of_run (h : Run (ProgramStep cfg requests) {} moves s) :
    Authorized requests moves s := by
  refine h.historyInvariant ⟨rfl, fun _ => nofun, nofun, nofun⟩ fun _ _ _ _ hinv hstep => ?_
  exact hinv.step hstep

/-! ## Operations that nothing disturbs -/

section Undisturbed
variable {client thread : Nat}

@[simp] theorem World.put_context (w : World) : w.put client (w.context client) = w := by
  simp [World.put, World.context]

@[simp] theorem World.put_put (w : World) (c d : Context) :
    (w.put client c).put client d = w.put client d := by
  simp [World.put]

theorem receive_with (w : World) (threads : Nat → Option (Nat × ClientM (Option Bool)))
    (call : Option CloudEvent) :
    ({ s with world := w, threads := threads } : Program).receive client call =
      { s.receive client call with world := w, threads := threads } := by
  unfold Program.receive
  split <;> rfl

theorem foldl_receive_with (threads : Nat → Option (Nat × ClientM (Option Bool)))
    (calls : List (Option CloudEvent)) :
    calls.foldl (·.receive client ·) ({ s with threads := threads } : Program) =
      { calls.foldl (·.receive client ·) s with threads := threads } := by
  induction calls generalizing s with
  | nil => rfl
  | cons call calls ih =>
    rw [List.foldl_cons, List.foldl_cons, ← ih]
    refine congrArg (List.foldl _ · calls) ?_
    unfold Program.receive
    split <;> rfl

theorem foldl_receive_threads (calls : List (Option CloudEvent)) :
    (calls.foldl (·.receive client ·) s).threads = s.threads := by
  induction calls generalizing s with
  | nil => rfl
  | cons call calls ih => exact ih.trans receive_threads

/-- The moves of one thread are the steps of what it has left to do. -/
theorem run_act {p q : ClientM (Option Bool)} {d : Context} {calls : List (Option CloudEvent)}
    (hp : s.threads thread = some (client, p))
    (h : Run Procedure.Step (p, s.world.context client) calls (q, d)) :
    Run (ProgramStep cfg requests) s (calls.map (.act thread client))
      { calls.foldl (·.receive client ·) s with
        world := s.world.put client d
        threads := Function.update s.threads thread (some (client, q)) } := by
  generalize hend : (q, d) = last at h
  induction h generalizing q d with
  | refl =>
    cases hend
    rw [← hp, World.put_context, Function.update_eq_self]
    exact .refl
  | @snoc calls last call _ hrun hstep ih =>
    subst hend
    obtain ⟨p', u⟩ := last
    have hact := ih rfl
    have hcontext : (s.world.put client u).context client = u := by
      simp [World.context, World.put]
    have hp' : Function.update s.threads thread (some (client, p')) thread = some (client, p') :=
      Function.update_self ..
    have hlast := hact.snoc (.act hp' (by rw [hcontext]; exact hstep))
    simpa [receive_with, List.foldl_append] using hlast

/-- An operation that runs undisturbed from its start to its end. -/
theorem run_undisturbed {op : Operation} {calls : List (Option CloudEvent)}
    {result : Option Bool} {d : Context} (hidle : s.threads thread = none)
    (h : Run Procedure.Step (op.body cfg, s.world.context client) calls (.ret result, d)) :
    Run (ProgramStep cfg requests) s
      ((.start thread client op :: calls.map (.act thread client)) ++ [.finish thread])
      { calls.foldl (·.receive client ·) s with world := s.world.put client d } := by
  let started : Program :=
    { s with threads := Function.update s.threads thread (some (client, op.body cfg)) }
  have hstart : ProgramStep cfg requests s (.start thread client op) started :=
    .start client op hidle
  have hp : started.threads thread = some (client, op.body cfg) := Function.update_self ..
  have hacts := (Run.single hstart).append (run_act hp h)
  have hend := hacts.snoc (.finish (Function.update_self ..))
  have hthreads : Function.update s.threads thread none = s.threads := by
    rw [← hidle, Function.update_eq_self]
  simpa [started, foldl_receive_with, foldl_receive_threads, hthreads] using hend

/-- The steps of a registration whose setup succeeds. -/
def registration : List (Option CloudEvent) :=
  ((Operation.callRegister.body .reference).steps (cloudAnswers true none []) {}).1

theorem run_snoc_ask (h : Run (ProgramStep cfg requests) {} moves s) (request : Int32)
    (hbuiltin : s.handler client = some .builtin) (hidle : s.asking client = none) :
    ∃ s', Run (ProgramStep cfg requests) {} (moves ++ [.ask client request]) s' ∧
      s'.asking client = some (updateAuthorize requests request) ∧ s'.helper = s.helper :=
  ⟨_, h.snoc (.ask request hbuiltin hidle), Function.update_self .., rfl⟩

theorem run_snoc_handle (h : Run (ProgramStep cfg requests) {} moves s) {p q : HelperM Unit}
    {call : Option HelperEvent} (hp : s.asking client = some p)
    (hstep : Procedure.Step (p, s.helper) call (q, s.helper)) :
    ∃ s', Run (ProgramStep cfg requests) {} (moves ++ [.handle client call]) s' ∧
      s'.asking client = some q ∧ s'.helper = s.helper :=
  ⟨_, h.snoc (.handle hp hstep), Function.update_self .., rfl⟩

/-- Two clients register, one after the other. -/
theorem run_registered (requests : Requests) : ∃ s : Program,
    Run (ProgramStep .reference requests) {}
      ((.start 0 0 .callRegister :: registration.map (.act 0 0) ++ [.finish 0]) ++
        (.start 0 1 .callRegister :: registration.map (.act 0 1) ++ [.finish 0])) s ∧
    s.handler 0 = some .builtin ∧ s.asking 0 = none ∧ s.helper = some 1 := by
  have hsteps : Run Procedure.Step (Operation.callRegister.body .reference, ({} : Context))
      registration (.ret (some true), _) :=
    run_steps (cloudAnswers true none []) rfl
  have hfirst : Run (ProgramStep .reference requests) {}
      (.start 0 0 .callRegister :: registration.map (.act 0 0) ++ [.finish 0]) _ :=
    run_undisturbed rfl hsteps
  exact ⟨_, hfirst.append (run_undisturbed rfl hsteps), rfl, rfl, rfl⟩

/-- Every step of the program of whole operations is a run of single steps. -/
theorem run_of_worldStep {l : WorldLabel} {w' : World} (hidle : s.threads thread = none)
    (h : WorldStep cfg s.world l w') :
    ∃ moves s', Run (ProgramStep cfg requests) s moves s' ∧ s'.world = w' ∧
      s'.threads = s.threads := by
  obtain ⟨-, c, hexec, rfl⟩ := h
  obtain ⟨calls, hrun, -⟩ := exec_iff_run.mp hexec
  exact ⟨_, _, run_undisturbed hidle hrun, rfl, foldl_receive_threads calls⟩

/-- The runs of whole operations are among the runs of single steps. -/
theorem run_of_worldRun {labels : List WorldLabel} {w' : World} (hidle : s.threads thread = none)
    (h : Run (WorldStep cfg) s.world labels w') :
    ∃ moves s', Run (ProgramStep cfg requests) s moves s' ∧ s'.world = w' ∧
      s'.threads = s.threads := by
  induction h with
  | refl => exact ⟨[], s, .refl, rfl, rfl⟩
  | snoc _ hstep ih =>
    obtain ⟨moves, t, hrun, rfl, hthreads⟩ := ih
    obtain ⟨more, u, hmore, hworld, hsame⟩ := run_of_worldStep (by rw [hthreads]; exact hidle) hstep
    exact ⟨_, u, hrun.append hmore, hworld, hsame.trans hthreads⟩

end Undisturbed

/-! ## Requests -/

/-- However operations and requests interleave, a built-in handler that has been asked can always
go on to its end: `_client` is never NULL when it is used. -/
theorem handler_proceeds (h : Run (ProgramStep cfg requests) {} moves s) {client : Nat}
    {p : HelperM Unit} (hp : s.asking client = some p) :
    p = .ret () ∨ ∃ call s', ProgramStep cfg requests s (.handle client call) s' := by
  obtain ⟨hsome, request, -, hrest⟩ := (authorized_of_run h).asking hp
  obtain ⟨target, htarget⟩ := Option.ne_none_iff_exists'.mp hsome
  refine (hrest.proceeds target).imp_right ?_
  rintro ⟨call, q, hstep⟩
  rw [← htarget] at hstep
  exact ⟨call, _, .handle hp hstep⟩

/-- A client that has registered asks. -/
theorem handler_proceeds_registered : ∃ (requests : Requests) (s : Program) (p : HelperM Unit),
    s.asking 0 = some p ∧ s.helper = some 1 ∧
    (p = .ret () ∨ ∃ call s', ProgramStep .reference requests s (.handle 0 call) s') := by
  let requests : Requests := ⟨1, 2, by decide⟩
  obtain ⟨s, hrun, hbuiltin, hidle, hhelper⟩ := run_registered requests
  obtain ⟨s₁, hask, hp, hsame⟩ := run_snoc_ask hrun requests.download hbuiltin hidle
  exact ⟨requests, s₁, _, hp, hsame.trans hhelper, handler_proceeds hask hp⟩

/-- However operations and requests interleave, a handler that has ended has granted a request
that it knows exactly once, to the client that was announced last when it looked; it has granted
nothing else. -/
theorem grant_of_handled (h : Run (ProgramStep cfg requests) {} moves s) {client : Nat}
    (hstep : ProgramStep cfg requests s (.handled client) s') :
    ∃ request, asked client moves = some request ∧
      if requests.Known request then
        ∃ target, seen client moves = some target ∧ answers client moves = [(target, request)]
      else answers client moves = [] := by
  have hp : s.asking client = some (.ret ()) := by
    cases hstep
    assumption
  obtain ⟨-, request, hasked, hrest⟩ := (authorized_of_run h).asking hp
  exact ⟨request, hasked, hrest.of_ret⟩

/-- Of two registered clients the first asks, and the second is granted. -/
theorem grant_of_handled_other : ∃ (requests : Requests) (moves : List ProgramMove)
    (s s' : Program),
    Run (ProgramStep .reference requests) {} moves s ∧
    ProgramStep .reference requests s (.handled 0) s' ∧
    (∃ request, asked 0 moves = some request ∧
      if requests.Known request then
        ∃ target, seen 0 moves = some target ∧ answers 0 moves = [(target, request)]
      else answers 0 moves = []) ∧
    answers 0 moves = [(1, requests.download)] := by
  let requests : Requests := ⟨1, 2, by decide⟩
  obtain ⟨s, hrun, hbuiltin, hidle, hhelper⟩ := run_registered requests
  obtain ⟨s₁, hrun₁, hp₁, h₁⟩ := run_snoc_ask hrun requests.download hbuiltin hidle
  rw [show updateAuthorize requests requests.download =
    grant "Firmware download requested\r\n" requests.download from if_pos rfl] at hp₁
  obtain ⟨s₂, hrun₂, hp₂, h₂⟩ := run_snoc_handle hrun₁ hp₁ (.call _ _ _ ())
  obtain ⟨s₃, hrun₃, hp₃, h₃⟩ := run_snoc_handle hrun₂ hp₂ (.call _ _ _ ())
  obtain ⟨s₄, hrun₄, hp₄, h₄⟩ := run_snoc_handle hrun₃ hp₃ (.read _ _)
  rw [h₃, h₂, h₁, hhelper] at hp₄
  obtain ⟨s₅, hrun₅, hp₅, -⟩ := run_snoc_handle hrun₄ hp₄ (.call _ _ _ ())
  exact ⟨requests, _, s₅, _, hrun₅, .handled hp₅, grant_of_handled hrun₅ (.handled hp₅), rfl⟩

end SimpleCloudClient
