import SimpleCloudClient.Program.Refinement

/-!
# Which calls can fail

An operation on a resource uses pointers: that of the resource itself, and for an event of the
cloud that of the M2M resource it is bound to. Which resources exist and which are bound is read
off the operations of the client alone: the first registration binds the resources that there are,
and those created later are never bound.
-/
namespace SimpleCloudClient
open CString Memory Procedure SimpleMbedCloudClient Transition

/-- How many resources a client has created, and how many of them it had at its first
registration. -/
structure Lifecycle where
  created : Nat := 0
  opened : Option Nat := none
  deriving DecidableEq, Repr

namespace Lifecycle

def advance (s : Lifecycle) : Operation → Lifecycle
  | .createResource .. => { s with created := s.created + 1 }
  | .registerAndConnect _ => { s with opened := s.opened.or (some s.created) }
  | _ => s

def of (ops : List Operation) : Lifecycle := ops.foldl advance {}

@[simp] theorem of_concat (ops : List Operation) (op : Operation) :
    of (ops ++ [op]) = (of ops).advance op := by
  simp [of]

theorem isSome_opened_advance {s : Lifecycle} (h : s.opened.isSome) (op : Operation) :
    (s.advance op).opened.isSome := by
  cases op with
  | registerAndConnect memory => simp [advance]
  | _ => exact h

theorem isSome_opened {ops : List Operation} {op : Operation} (hmem : op ∈ ops)
    (hop : op.IsRegisterAndConnect) : (of ops).opened.isSome := by
  induction ops using List.reverseRecOn with
  | nil => simp at hmem
  | append_singleton ops last ih =>
    rw [of_concat]
    rcases List.mem_append.mp hmem with hfront | hlast
    · exact isSome_opened_advance (ih hfront) last
    · obtain rfl := List.mem_singleton.mp hlast
      obtain ⟨memory, rfl⟩ := hop
      simp [advance]

/-- The operation finds the pointers it uses. -/
def Accepts (s : Lifecycle) : Operation → Prop
  | .changeResource i _ => i < s.created
  | .cloudWrite i _ | .cloudExecute i _ | .cloudNotification i _ => i < s.opened.getD 0
  | _ => True

/-- The table has the entries created, and those of the first registration are exposed. -/
structure Describes (s : Lifecycle) (t : Table) : Prop where
  created : t.entries.length = s.created
  opened : t.registered = s.opened.isSome
  bound : s.opened.getD 0 ≤ s.created
  exposed : ∀ {i : Nat} {e : Entry}, t.entries[i]? = some e →
    (e.exposure.isSome ↔ i < s.opened.getD 0)

variable {s : Lifecycle} {t t' : Table} {cfg : Config} {op : Operation} {i : Nat} {e e' : Entry}

theorem describes_empty : Describes {} {} where
  created := rfl
  opened := rfl
  bound := le_rfl
  exposed h := by simp at h

/-- A change of an entry that keeps its exposure. -/
theorem Describes.set (h : s.Describes t) (hi : t.entries[i]? = some e)
    (hexposure : e'.exposure = e.exposure) : s.Describes (t.set i e') where
  created := by simp [Table.set, h.created]
  opened := h.opened
  bound := h.bound
  exposed {j x} hj := by
    simp only [Table.set, List.getElem?_set] at hj
    split at hj
    · subst j
      split at hj
      · obtain rfl := Option.some.inj hj
        rw [hexposure]
        exact h.exposed hi
      · cases hj
    · exact h.exposed hj

theorem Describes.register (h : s.Describes t) (memory : MccResourceDef) :
    (s.advance (.registerAndConnect memory)).Describes t.register := by
  have hopened := h.opened
  cases hs : s.opened with
  | some n =>
    have hsame : s.advance (.registerAndConnect memory) = s := by
      obtain ⟨created, opened⟩ := s
      subst hs
      rfl
    rw [hsame, Table.register, if_pos (by rw [hopened, hs]; rfl)]
    exact h
  | none =>
    have hnot : ¬t.registered = true := by
      rw [hopened, hs]
      exact Bool.false_ne_true
    rw [Table.register, if_neg hnot]
    refine ⟨by simp [advance, h.created], by simp [advance, hs], by simp [advance, hs], ?_⟩
    intro i e hi
    simp only [List.getElem?_map, Option.map_eq_some_iff] at hi
    obtain ⟨x, hx, rfl⟩ := hi
    have hlt := (List.getElem?_eq_some_iff.mp hx).1
    rw [h.created] at hlt
    simp [Entry.expose, advance, hs, hlt]

theorem Describes.create (h : s.Describes t) (memory : RawMemory) (path name : Text) :
    (s.advance (.createResource memory path name)).Describes
      { t with entries := t.entries ++ [.fresh memory] } where
  created := by simp [advance, h.created]
  opened := h.opened
  bound := Nat.le_succ_of_le h.bound
  exposed {i e} hi := by
    rw [List.getElem?_append] at hi
    split at hi
    · exact h.exposed hi
    · have hle : s.opened.getD 0 ≤ i := by
        have := h.bound
        have := h.created
        omega
      obtain rfl := List.mem_singleton.mp (List.mem_of_getElem? hi)
      simp only [Entry.fresh, Option.isSome_none, Bool.false_eq_true, advance, false_iff]
      omega

theorem exposure_change (change : ResourceChange) :
    (e.change cfg change).exposure = e.exposure := by
  cases change with
  | setValueFloat value =>
    simp only [Entry.change]
    split <;> rfl
  | _ => rfl

theorem entry_of_exposed {exposure : Exposure} (h : t.exposed i = some (e, exposure)) :
    t.entries[i]? = some e := by
  simp only [Table.exposed, Option.bind_eq_some_iff, Option.map_eq_some_iff] at h
  obtain ⟨x, hx, y, -, heq⟩ := h
  cases heq
  exact hx

theorem Describes.step (h : s.Describes t) {calls : List Command}
    (hstep : t.step cfg op = some (t', calls)) : (s.advance op).Describes t' := by
  cases op with
  | registerAndConnect memory =>
    cases hstep
    exact h.register memory
  | createResource memory path name =>
    cases hstep
    exact h.create memory path name
  | changeResource i change =>
    obtain ⟨e, he, heq⟩ := Option.map_eq_some_iff.mp hstep
    cases heq
    exact h.set he (exposure_change change)
  | cloudWrite i value =>
    obtain ⟨⟨e, exposure⟩, he, heq⟩ := Option.map_eq_some_iff.mp hstep
    cases heq
    exact h.set (entry_of_exposed he) rfl
  | cloudExecute i params =>
    obtain ⟨p, -, heq⟩ := Option.map_eq_some_iff.mp hstep
    cases heq
    exact h
  | cloudNotification i status =>
    obtain ⟨p, -, heq⟩ := Option.map_eq_some_iff.mp hstep
    cases heq
    exact h
  | _ =>
    cases hstep
    exact h

theorem Describes.isSome_exposed (h : s.Describes t) :
    (t.exposed i).isSome ↔ i < s.opened.getD 0 := by
  unfold Table.exposed
  cases hi : t.entries[i]? with
  | some e => simpa using h.exposed hi
  | none =>
    have hlen := List.getElem?_eq_none_iff.mp hi
    have hbound := h.bound
    have hcreated := h.created
    simp only [Option.bind_none, Option.isSome_none, Bool.false_eq_true, false_iff]
    omega

/-- The table responds exactly to the operations that find their pointers. -/
theorem Describes.isSome_step (h : s.Describes t) :
    (t.step cfg op).isSome ↔ s.Accepts op := by
  cases op with
  | changeResource i change =>
    have hlt : t.entries[i]?.isSome ↔ i < s.created := by
      rw [← h.created]
      simp
    simpa [Table.step, Accepts] using hlt
  | cloudWrite i value => simpa [Table.step, Accepts] using h.isSome_exposed
  | cloudExecute i params => simpa [Table.step, Accepts] using h.isSome_exposed
  | cloudNotification i status => simpa [Table.step, Accepts] using h.isSome_exposed
  | _ => simp [Table.step, Accepts]

end Lifecycle

variable {cfg : Config} {w w' : World} {labels : List WorldLabel} {c' : Context}

/-- In every run the operations of a client describe its table. -/
theorem describes_of_run (hm : cfg.mbedClient.Lawful) (hw : w.Fresh)
    (h : Run (WorldStep cfg) w labels w') (client : Nat) :
    (Lifecycle.of ((stepsOf client labels).map (·.step.op))).Describes (w'.tables client) :=
  Machine.replay_invariant (fun ops t => (Lifecycle.of ops).Describes t)
    (replay_client hm hw h client) Lifecycle.describes_empty fun ops t op t' calls hs hstep => by
      rw [Lifecycle.of_concat]
      exact hs.step hstep

/-- After every run of any number of clients, an operation of a client that has registered ends
without a fault exactly if it finds its pointers, and a fault leaves everything as it was. -/
theorem fault_iff (hm : cfg.mbedClient.Lawful) (hw : w.Fresh)
    (h : Run (WorldStep cfg) w labels w') {client : Nat} {op : Operation} {tr : List CloudEvent}
    {o : Except Fault (Option Bool)}
    (hfirst : op.IsRegisterAndConnect →
      ∃ l ∈ stepsOf client labels, l.step.op.IsRegisterAndConnect)
    (hexec : Exec (op.body cfg) (w'.context client) tr o c') :
    ((∃ result, o = .ok result) ↔
      (Lifecycle.of ((stepsOf client labels).map (·.step.op))).Accepts op) ∧
    ∀ fault, o = .error fault → tr = [] ∧ c' = w'.context client := by
  have hsound := (tables_of_run hm hw h).1.sound client
  have hdescribes := describes_of_run hm hw h client
  have hcalled (hop : op.IsRegisterAndConnect) :
      (w'.context client).self.registerAndConnectCalled = true := by
    obtain ⟨l, hl, hregister⟩ := hfirst hop
    exact hdescribes.opened.trans (Lifecycle.isSome_opened (List.mem_map_of_mem hl) hregister)
  have hanswers := hsound.answers hm op hcalled tr o c' hexec
  have haccepts : ((w'.tables client).step cfg op).isSome ↔ _ := hdescribes.isSome_step
  rw [← haccepts]
  cases hstep : (w'.tables client).step cfg op with
  | none =>
    rw [show (w'.context client).table.step cfg op = none from hstep] at hanswers
    obtain ⟨⟨fault, rfl⟩, rfl, rfl⟩ := hanswers
    exact ⟨by simp, fun _ _ => ⟨rfl, rfl⟩⟩
  | some response =>
    rw [show (w'.context client).table.step cfg op = some response from hstep] at hanswers
    obtain ⟨⟨result, rfl⟩, -⟩ := hanswers
    exact ⟨by simp, nofun⟩

/-- The cloud executes a resource of the first of the twins, and one that it does not have. -/
theorem fault_iff_twins : ∃ (labels : List WorldLabel) (w' : World),
    Run (WorldStep .reference) {} labels w' ∧ labels.length = 8 ∧ ∀ i tr o c',
      Exec ((Operation.cloudExecute i none).body .reference) (w'.context 0) tr o c' →
        ((∃ result, o = .ok result) ↔ i = 0) := by
  have hboth : ((World.play ⟨10⟩ {} twins).map (·.1.length)) = some 8 := by decide +kernel
  obtain ⟨⟨labels, w'⟩, hplay, hlength⟩ := Option.map_eq_some_iff.mp hboth
  have hfresh : World.Fresh {} := rfl
  refine ⟨labels, w', run_play hplay, hlength, fun i tr o c' hexec => ?_⟩
  have hnot : (Operation.cloudExecute i none).IsRegisterAndConnect →
      ∃ l ∈ stepsOf 0 labels, l.step.op.IsRegisterAndConnect := by
    rintro ⟨memory, ⟨⟩⟩
  rw [(fault_iff MbedClient.reference_lawful hfresh (run_play hplay) hnot hexec).1,
    stepsOf_play hplay]
  exact Nat.lt_one_iff

end SimpleCloudClient
