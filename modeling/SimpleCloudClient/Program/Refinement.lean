import SimpleCloudClient.Program.Frame
import SimpleCloudClient.Client.Delivery

/-!
# A program of clients is a family of tables

Any number of clients share the objects of mbed-client and the static variable of
`client_registered`. Seen through their tables they share nothing: every run of the program is a
run of the family of tables, in which each operation changes the table of its client only.
-/
namespace SimpleCloudClient
open CString Memory Procedure SimpleMbedCloudClient Transition

/-- The clients have just been constructed, whatever mbed-client holds. -/
def World.Fresh (w : World) : Prop := w.clients = fun _ => {}

def World.tables (w : World) (client : Nat) : Table := (w.context client).table

/-- One table responds to an operation, and the others stay as they are. -/
abbrev TablesStep (cfg : Config) (tables : Nat → Table)
    (l : FamilyLabel Nat Operation (List Command)) (tables' : Nat → Table) : Prop :=
  FamilyStep (Table.step cfg) tables l tables'

/-- Each client is sound, and no M2M resource is bound by two clients. -/
structure World.Sound (w : World) : Prop where
  sound : ∀ client, SimpleCloudClient.Sound (w.context client)
  apart : ∀ {a b i j : Nat} {ρ : Ref M2MResource},
    (w.clients a).Binds i ρ → (w.clients b).Binds j ρ → b = a

/-- What a step shows of itself: the operation and the callbacks of resources it invoked. -/
def WorldLabel.response (l : WorldLabel) : FamilyLabel Nat Operation (List Command) :=
  ⟨l.client, l.step.op, invoked l.step.trace⟩

variable {cfg : Config} {w w' v v' : World} {l : WorldLabel} {labels : List WorldLabel}

theorem World.Fresh.sound (h : w.Fresh) : w.Sound where
  sound client := by
    have hself : (w.context client).self = {} := congrFun h client
    refine ⟨Context.Fresh.linked hself, fun {k r ρ x} hr => ?_⟩
    rw [hself] at hr
    simp at hr
  apart {a b i j ρ} ha := by
    obtain ⟨r, hr, -⟩ := ha
    rw [h] at hr
    simp at hr

theorem World.Fresh.tables (h : w.Fresh) : w.tables = fun _ => {} := by
  funext client
  have hself : (w.context client).self = {} := congrFun h client
  simp [World.tables, Context.table, hself]

section Put
variable {c : Context}

@[simp] theorem World.context_put_self (client : Nat) :
    (w.put client c).context client = c := by
  simp [World.context, World.put]

theorem World.clients_put_of_ne {client other : Nat} (h : other ≠ client) :
    (w.put client c).clients other = w.clients other := by
  simp [World.put, Function.update_of_ne h]

/-- A step of one client within its reach is not seen through another client. -/
theorem World.Sound.context_other (h : w.Sound) {client other : Nat} (hne : other ≠ client)
    (hc : Confined (w.context client) c) :
    SimpleCloudClient.Sound ((w.put client c).context other) ∧
      (w.put client c).tables other = w.tables other := by
  have hself : ((w.put client c).context other).self = (w.context other).self :=
    World.clients_put_of_ne hne
  have hkept : ∀ {k : Nat} {r : MbedCloudClientResource} {ρ : Ref M2MResource},
      (w.clients other).resources[k]? = some r → r.resource = some ρ →
      c.heap.resources.get? ρ = w.heap.resources.get? ρ := by
    intro k r ρ hr hρ
    obtain ⟨x, hx⟩ := Option.isSome_iff_exists.mp ((h.sound other).linked.exist hr hρ)
    have hx : w.heap.resources.get? ρ = some x := hx
    rw [hx]
    exact hc.others hx fun i hi => hne (h.apart hi ⟨r, hr, hρ⟩)
  refine ⟨⟨?_, ?_⟩, ?_⟩
  · refine (h.sound other).linked.of_bound (by rw [hself]) (by rw [hself]) ?_ hc.values
    intro i r ρ hr hρ
    exact ⟨r, by rwa [hself] at hr, hρ⟩
  · intro k r ρ x hr hρ hx
    rw [hself] at hr
    have hx' : w.heap.resources.get? ρ = some x := (hkept hr hρ).symm.trans hx
    exact (h.sound other).owned hr hρ hx'
  · unfold World.tables Context.table
    rw [hself]
    refine congrArg (Table.mk · _) (List.map_congr_left fun r hr => entry_congr fun ρ hρ => ?_)
    obtain ⟨k, hk⟩ := List.mem_iff_getElem?.mp hr
    exact hkept hk hρ

end Put

/-- The step lemma: soundness is kept, and the tables respond. -/
theorem World.Sound.step (hm : cfg.mbedClient.Lawful) (h : w.Sound) (hstep : WorldStep cfg w l w') :
    w'.Sound ∧ TablesStep cfg w.tables l.response w'.tables := by
  obtain ⟨-, c, hexec, rfl⟩ := hstep
  have hc := h.sound l.client
  have hconfined := hexec.confined hm hc.linked
  have hother {other : Nat} (hne : other ≠ l.client) := h.context_other hne hconfined
  refine ⟨⟨fun client => ?_, fun {a b i j ρ} ha hb => ?_⟩, ?_⟩
  · by_cases hclient : client = l.client
    · subst hclient
      rw [World.context_put_self]
      exact hc.step hm hexec
    · exact (hother hclient).1
  · -- a new M2M resource did not exist, so no other client can be bound to it
    have hnew {b i j : Nat} (ha : c.self.Binds i ρ) (hb : (w.clients b).Binds j ρ) :
        b = l.client := by
      rcases hconfined.binds ha with hold | ⟨hnone, -⟩
      · exact h.apart hold hb
      · obtain ⟨r, hr, hρ⟩ := hb
        have hsome := (h.sound b).linked.exist hr hρ
        rw [show (w.context b).heap.resources.get? ρ = none from hnone] at hsome
        cases hsome
    by_cases hal : a = l.client <;> by_cases hbl : b = l.client
    · exact hbl.trans hal.symm
    · subst hal
      rw [World.clients_put_of_ne hbl] at hb
      have ha : c.self.Binds i ρ := by simpa [World.put] using ha
      exact hnew ha hb
    · subst hbl
      rw [World.clients_put_of_ne hal] at ha
      have hb : c.self.Binds j ρ := by simpa [World.put] using hb
      exact (hnew hb ha).symm
    · rw [World.clients_put_of_ne hal] at ha
      rw [World.clients_put_of_ne hbl] at hb
      exact h.apart ha hb
  · refine ⟨c.table, hc.table_step hm hexec, ?_⟩
    funext client
    by_cases hclient : client = l.client
    · subst hclient
      simp [World.tables, WorldLabel.response]
    · change _ = Function.update w.tables l.client c.table client
      rw [Function.update_of_ne hclient]
      exact (hother hclient).2

/-- The program refines the family of tables, which do not share anything. -/
def programSimulation (hm : cfg.mbedClient.Lawful) :
    Simulation (WorldStep cfg) (TablesStep cfg) where
  rel w tables := w.Sound ∧ w.tables = tables
  label := WorldLabel.response
  step h hstep := by
    obtain ⟨hsound, rfl⟩ := h
    obtain ⟨hsound', htables⟩ := hsound.step hm hstep
    exact ⟨_, htables, hsound', rfl⟩

theorem tables_of_run (hm : cfg.mbedClient.Lawful) (hw : w.Fresh)
    (h : Run (WorldStep cfg) w labels w') :
    w'.Sound ∧ Run (TablesStep cfg) (fun _ => {}) (labels.map (·.response))
      w'.tables := by
  obtain ⟨tables, hrun, hsound, rfl⟩ := (programSimulation hm).run ⟨hw.sound, hw.tables⟩ h
  exact ⟨hsound, hrun⟩

/-- The steps of one client. -/
def stepsOf (client : Nat) (labels : List WorldLabel) : List WorldLabel :=
  labels.filter (·.client = client)

theorem labelsOf_response (client : Nat) (labels : List WorldLabel) :
    labelsOf client (labels.map (·.response)) = (stepsOf client labels).map (·.response) := by
  simp only [labelsOf, stepsOf, List.filter_map]
  rfl

/-- What happens to one client is the replay of its own operations. -/
theorem replay_client (hm : cfg.mbedClient.Lawful) (hw : w.Fresh)
    (h : Run (WorldStep cfg) w labels w') (client : Nat) :
    Machine.replay (Table.step cfg) {} ((stepsOf client labels).map (·.step.op)) =
      some (w'.tables client, (stepsOf client labels).map (invoked ·.step.trace)) := by
  have hreplay := replay_of_run (tables_of_run hm hw h).2 client
  rw [labelsOf_response, List.map_map, List.map_map] at hreplay
  exact hreplay

/-! ## Running a program -/

/-- The operations, each of its client, with a cloud client that always answers the same. -/
def World.play (info : ConnectorClientEndpointInfo) :
    World → List (Nat × Operation) → Option (List WorldLabel × World)
  | w, [] => some ([], w)
  | w, (client, op) :: ops =>
    let (tr, outcome, c) := op.run .reference (cloudAnswers true (some info)) (w.context client)
    match outcome with
    | .ok result =>
      ((w.put client c).play info ops).map fun p => (⟨client, info, op, tr, result⟩ :: p.1, p.2)
    | .error _ => none

theorem run_play {info : ConnectorClientEndpointInfo} {ops : List (Nat × Operation)}
    (h : w.play info ops = some (labels, w')) : Run (WorldStep .reference) w labels w' := by
  induction ops generalizing w labels with
  | nil =>
    cases h
    exact .refl
  | cons p ops ih =>
    obtain ⟨client, op⟩ := p
    simp only [World.play] at h
    split at h
    · rename_i result hok
      obtain ⟨⟨rest, last⟩, hrest, heq⟩ := Option.map_eq_some_iff.mp h
      cases heq
      refine Run.append (.single ⟨?_, _, step_of_run _ op _ hok, rfl⟩) (ih hrest)
      have hanswers := Proc.forall_mem_run (cloudAnswers true (some info))
        (fun e => ∀ reply, e = ⟨.endpointInfo, reply⟩ → reply = some info)
        (fun past c reply hreply => by obtain ⟨⟩ := c <;> cases hreply; rfl)
        (op.body .reference) (w.context client) []
      exact fun reply hmem => hanswers _ hmem reply rfl
    · cases h

/-- The steps of a client are its operations. -/
theorem stepsOf_play {info : ConnectorClientEndpointInfo} {ops : List (Nat × Operation)}
    {client : Nat} (h : w.play info ops = some (labels, w')) :
    (stepsOf client labels).map (·.step.op) = (ops.filter (·.1 = client)).map (·.2) := by
  have hops : labels.map (fun l => (l.client, l.step.op)) = ops := by
    induction ops generalizing w labels with
    | nil =>
      cases h
      rfl
    | cons p ops ih =>
      obtain ⟨client, op⟩ := p
      simp only [World.play] at h
      split at h
      · obtain ⟨⟨rest, last⟩, hrest, heq⟩ := Option.map_eq_some_iff.mp h
        cases heq
        rw [List.map_cons, ih hrest]
      · cases h
  rw [← hops, List.filter_map, List.map_map]
  rfl

/-- Two clients create a resource at the same place, with a callback each. -/
def twins : List (Nat × Operation) :=
  let create : Operation := .createResource ⟨true, 3⟩ (Position.path ⟨3200, 0, 5501⟩) empty
  let register : Operation :=
    .registerAndConnect ⟨⟨0, 0, 0⟩, empty, 0, [], false, none, none, none⟩
  [(0, create), (0, .changeResource 0 (.attachPutCallback ⟨1⟩)), (1, create), (0, register),
    (1, .changeResource 0 (.attachPutCallback ⟨2⟩)), (1, register), (0, .cloudWrite 0 [55]),
    (1, .cloudWrite 0 [56])]

/-! ## The program and its tables -/

/-- In every run of any number of freshly constructed clients the tables of the clients respond to
the operations, each to those of its own client. -/
theorem program_refines_tables (hm : cfg.mbedClient.Lawful) (hw : w.Fresh)
    (h : Run (WorldStep cfg) w labels w') :
    Run (TablesStep cfg) (fun _ => {}) (labels.map (·.response)) w'.tables :=
  (tables_of_run hm hw h).2

/-- A write through one of the twins is not seen through the other. -/
theorem program_refines_tables_twins : ∃ (labels : List WorldLabel) (w' : World),
    Run (TablesStep .reference) (fun _ => {}) (labels.map (·.response)) w'.tables ∧
    labels.map (invoked ·.step.trace) = [[], [], [], [], [], [],
      [.putCallback ⟨1⟩ 0 [55]], [.putCallback ⟨2⟩ 0 [56]]] ∧
    (w'.tables 0).entries.map (·.value) = [[55]] ∧
    (w'.tables 1).entries.map (·.value) = [[56]] := by
  have hplay : ((World.play ⟨10⟩ {} twins).map fun p => (p.1.map (invoked ·.step.trace),
      (p.2.tables 0).entries.map (·.value), (p.2.tables 1).entries.map (·.value))) =
      some ([[], [], [], [], [], [], [.putCallback ⟨1⟩ 0 [55]], [.putCallback ⟨2⟩ 0 [56]]],
        [[55]], [[56]]) := by decide +kernel
  obtain ⟨⟨labels, w'⟩, hrun, heq⟩ := Option.map_eq_some_iff.mp hplay
  obtain ⟨hcalls, hvalues⟩ := Prod.mk.inj heq
  obtain ⟨hfirst, hsecond⟩ := Prod.mk.inj hvalues
  have hfresh : World.Fresh {} := rfl
  exact ⟨labels, w', program_refines_tables MbedClient.reference_lawful hfresh (run_play hrun),
    hcalls, hfirst, hsecond⟩

/-- Two programs in which a client does the same, whatever the other clients do and whatever
mbed-client held at the start: it invokes the same callbacks of its resources and ends with the same
table. The callback of `on_registered` is not among them, since the clients share its endpoint. -/
theorem clients_isolated (hm : cfg.mbedClient.Lawful) (hw : w.Fresh) (hv : v.Fresh)
    {labels' : List WorldLabel} (h : Run (WorldStep cfg) w labels w')
    (h' : Run (WorldStep cfg) v labels' v') {client : Nat}
    (hsame : (stepsOf client labels).map (·.step.op) =
      (stepsOf client labels').map (·.step.op)) :
    (stepsOf client labels).map (invoked ·.step.trace) =
      (stepsOf client labels').map (invoked ·.step.trace) ∧
    w'.tables client = v'.tables client := by
  have hreplay := replay_client hm hw h client
  have hreplay' := replay_client hm hv h' client
  rw [hsame, hreplay'] at hreplay
  obtain ⟨htables, hcalls⟩ := Prod.mk.inj (Option.some.inj hreplay)
  exact ⟨hcalls.symm, htables.symm⟩

/-- The first of the twins, and a program in which it is alone. -/
theorem clients_isolated_twins : ∃ (labels labels' : List WorldLabel) (w' v' : World),
    Run (WorldStep .reference) {} labels w' ∧ Run (WorldStep .reference) {} labels' v' ∧
    labels.length = 8 ∧ labels'.length = 4 ∧
    (stepsOf 0 labels).map (invoked ·.step.trace) =
      (stepsOf 0 labels').map (invoked ·.step.trace) ∧ w'.tables 0 = v'.tables 0 := by
  let alone := twins.filter (·.1 = 0)
  have hboth : ((World.play ⟨10⟩ {} twins).map (·.1.length)) = some 8 := by decide +kernel
  have halone : ((World.play ⟨20⟩ {} alone).map (·.1.length)) = some 4 := by decide +kernel
  obtain ⟨⟨labels, w'⟩, hrun, hlength⟩ := Option.map_eq_some_iff.mp hboth
  obtain ⟨⟨labels', v'⟩, hrun', hlength'⟩ := Option.map_eq_some_iff.mp halone
  have hsame : (stepsOf 0 labels).map (·.step.op) = (stepsOf 0 labels').map (·.step.op) := by
    rw [stepsOf_play hrun, stepsOf_play hrun']
    rfl
  have hfresh : World.Fresh {} := rfl
  exact ⟨labels, labels', w', v', run_play hrun, run_play hrun', hlength, hlength',
    clients_isolated MbedClient.reference_lawful hfresh hfresh (run_play hrun) (run_play hrun')
      hsame⟩

end SimpleCloudClient
