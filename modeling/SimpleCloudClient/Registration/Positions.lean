import SimpleCloudClient.Registration.Isolation
import SimpleCloudClient.Registration.Values

/-!
# The positions that paths denote

A path is turned into ids, and the ids are narrowed to 16 bits where they are passed on. So a
list of paths denotes a list of positions, read one after the other over one `resourceDef`. The
loop of `register_and_connect` ends exactly when these positions are pairwise different, and a
triple of numbers is placed where it says exactly when its numbers fit in 16 bits.
-/
namespace SimpleCloudClient
open CString Memory Procedure SimpleMbedCloudClient Transition

/-- The position that ids name after the narrowing of the call. -/
def Ids.position (ids : Ids) : Position :=
  ⟨ids.objectId.toUInt16, ids.instanceId.toUInt16, ids.resourceId.toUInt16⟩

theorem position_getData (r : MbedCloudClientResource) (this : Nat) (heap : M2M)
    (d : MccResourceDef) :
    (argsOf (r.getData this heap d)).position = (pathToIds r.path d.ids).position := rfl

/-- The positions of these paths, where `ids` is what `resourceDef` holds before the first. -/
def denoted : List Text → Ids → List Position
  | [], _ => []
  | path :: paths, ids => (pathToIds path ids).position :: denoted paths (pathToIds path ids)

def Context.paths (c : Context) : List Text := c.self.resources.map (·.path)

@[simp] theorem paths_bind (c : Context) (i : Nat) (res : Ref M2MResource)
    (list : List (Ref M2MObject)) (heap : M2M) : (c.bind i res list heap).paths = c.paths := by
  refine List.ext_getElem? fun j => ?_
  rw [Context.paths, Context.paths, List.getElem?_map, List.getElem?_map, getElem?_resources_bind]
  split
  · cases c.self.resources[j]? <;> rfl
  · rfl

variable {m : MbedClient} {cfg : Config} {c t u : Context} {d : MccResourceDef} {i todo : Nat}
variable {tr : List CloudEvent}

/-- The tree has the positions in `done`, which are different, and the loop goes on from index
`i`: it ends if the positions still to come are new, and stops at a NULL resource otherwise. -/
theorem registerResources_outcome (hm : m.Lawful) {o : Except Fault Unit} {done : List Position}
    (hcovers : Covers c.heap c.self.objList done) (hdone : done.Nodup)
    (hlength : i + todo = c.self.resources.length)
    (h : Exec (registerResources m todo i d) c tr o t) :
    o = if (done ++ denoted (c.paths.drop i) d.ids).Nodup then .ok () else .error .nullPointer := by
  induction todo generalizing i d c tr done with
  | zero =>
    have hnil : c.paths.drop i = [] := List.drop_eq_nil_of_le (by simp [Context.paths]; omega)
    simp only [registerResources, exec_pure] at h
    simp [hnil, denoted, hdone, h.2.1]
  | succ todo ih =>
    have hi : i < c.self.resources.length := by omega
    have hr := List.getElem?_eq_getElem hi
    generalize c.self.resources[i] = r at hr
    have hdrop : c.paths.drop i = r.path :: c.paths.drop (i + 1) := by
      obtain ⟨hlt, rfl⟩ := List.getElem?_eq_some_iff.mp hr
      rw [List.drop_eq_getElem_cons (by simpa [Context.paths] using hi)]
      simp [Context.paths]
    simp only [exec_registerResources_succ, hr] at h
    obtain ⟨rest, -, h⟩ := h
    rw [hdrop, denoted, ← position_getData r i c.heap d]
    rcases addResource_cases hm hcovers.wellFormed (argsOf (r.getData i c.heap d)) with
      ⟨ρ, htaken, hnone⟩ | ⟨hfree, list, heap, hsome, hadded⟩
    · have hmem : (argsOf (r.getData i c.heap d)).position ∈ done := by
        obtain ⟨p, hp, ho, hi, hr⟩ :=
          (hcovers.resources _ _ _).mp (Option.isSome_of_eq_some htaken)
        obtain rfl := Position.ext_toNat ho hi hr
        exact hp
      rw [hnone] at h
      rw [if_neg, h.2.1]
      intro hnodup
      exact (List.nodup_append.mp hnodup).2.2 _ hmem _ List.mem_cons_self rfl
    · have hnew : (argsOf (r.getData i c.heap d)).position ∉ done := by
        intro hmem
        have htaken := (hcovers.resources _ _ _).mpr ⟨_, hmem, rfl, rfl, rfl⟩
        rw [M2M.resourceAt] at hfree
        simp [hfree] at htaken
      have hdone' : (done ++ [(argsOf (r.getData i c.heap d)).position]).Nodup :=
        List.nodup_append.mpr ⟨hdone, List.nodup_singleton _, by grind⟩
      rw [hsome] at h
      have hrest := ih (hadded.covers_concat hcovers) hdone' (by simp [Context.bind]; omega) h
      simpa [MbedCloudClientResource.ids_getData] using hrest

/-! ## Does the call return? -/

/-- Whatever the cloud client answers, no pointer that is used is NULL. -/
def RunsToItsEnd (cfg : Config) (memory : MccResourceDef) (c : Context) : Prop :=
  ∀ tr o u, Exec (registerAndConnect cfg memory) c tr o u → ∃ b, o = .ok b

theorem registerAndConnect_outcome (hm : cfg.mbedClient.Lawful) (hc : Unregistered c)
    {memory : MccResourceDef} {o : Except Fault Bool}
    (h : Exec (registerAndConnect cfg memory) c tr o u) :
    if (denoted c.paths memory.ids).Nodup then ∃ b, o = .ok b else o = .error .nullPointer := by
  have hloop {tr : List CloudEvent} {o : Except Fault Unit} {t : Context}
      (h : Exec (registerResources cfg.mbedClient c.self.resources.length 0 memory) c tr o t) :
      o = if (denoted c.paths memory.ids).Nodup then .ok () else .error .nullPointer := by
    have := registerResources_outcome hm hc.covers List.nodup_nil (Nat.zero_add _) h
    rwa [List.nil_append, List.drop_zero] at this
  rcases exec_registerAndConnect_first hc.notCalled h with
    ⟨front, mid, back, -, hexec, hcall⟩ | ⟨fault, rfl, hexec⟩
  · have hok := hloop hexec
    split at hok
    · rw [if_pos (by assumption)]
      exact (sameTree_callRegister hcall).2
    · cases hok
  · have hfault := hloop hexec
    split at hfault
    · cases hfault
    · rw [if_neg (by assumption)]
      obtain rfl := Except.error.inj hfault
      rfl

/-- In every state a client can reach, `register_and_connect` runs to its end exactly when it has
run before or the paths denote different positions; otherwise it uses a NULL resource. -/
theorem runsToItsEnd_iff (hm : cfg.mbedClient.Lawful) {fresh : Context} {labels : List Label}
    (hfresh : fresh.Fresh) (hrun : Run (Step cfg) fresh labels t) (memory : MccResourceDef) :
    (RunsToItsEnd cfg memory t ↔
      t.self.registerAndConnectCalled = true ∨ (denoted t.paths memory.ids).Nodup) ∧
    ∀ tr o u, Exec (registerAndConnect cfg memory) t tr o u →
      (∃ b, o = .ok b) ∨ o = .error .nullPointer := by
  have hlinked := linked_of_run hm hfresh hrun
  cases hcalled : t.self.registerAndConnectCalled with
  | true =>
    have hend : RunsToItsEnd cfg memory t := by
      intro tr o u h
      exact ⟨false, (exec_registerAndConnect_called hcalled h).2.1⟩
    exact ⟨iff_of_true hend (.inl rfl), fun tr o u h => .inl (hend tr o u h)⟩
  | false =>
    have houtcome {tr : List CloudEvent} {o : Except Fault Bool} {u : Context}
        (h : Exec (registerAndConnect cfg memory) t tr o u) :=
      registerAndConnect_outcome hm (hlinked.phase hcalled) h
    by_cases hnodup : (denoted t.paths memory.ids).Nodup
    · simp only [if_pos hnodup] at houtcome
      exact ⟨iff_of_true (fun tr o u h => houtcome h) (.inr hnodup),
        fun tr o u h => .inl (houtcome h)⟩
    · simp only [if_neg hnodup] at houtcome
      refine ⟨iff_of_false (fun hend => ?_) (by simp [hnodup]), fun tr o u h => .inr (houtcome h)⟩
      obtain ⟨tr, o, u, h⟩ := exists_exec (registerAndConnect cfg memory) t
      obtain ⟨b, rfl⟩ := hend tr o u h
      cases houtcome h

/-- The resources 3200/0/5501 and 3200/0/5502 of one object instance. -/
theorem runsToItsEnd_iff_two : ∃ (labels : List Label) (t : Context) (memory : MccResourceDef),
    Run (Step .reference) {} labels t ∧
    t.paths = [Position.path ⟨3200, 0, 5501⟩, Position.path ⟨3200, 0, 5502⟩] ∧
    t.self.registerAndConnectCalled = false ∧ RunsToItsEnd .reference memory t := by
  let memory : MccResourceDef := ⟨⟨0, 0, 0⟩, empty, 0, [], false, none, none, none⟩
  let answer := cloudAnswers true none
  let create₁ : Operation := .createResource ⟨true, 3⟩ (Position.path ⟨3200, 0, 5501⟩) empty
  let create₂ : Operation := .createResource ⟨true, 3⟩ (Position.path ⟨3200, 0, 5502⟩) empty
  let c₁ := (create₁.run .reference answer {}).2.2
  have h₁ : Step .reference {} ⟨create₁, _, none⟩ c₁ := step_of_run answer create₁ {} rfl
  have h₂ : Step .reference c₁ ⟨create₂, _, none⟩ _ := step_of_run answer create₂ c₁ rfl
  have hfresh : Context.Fresh {} := rfl
  have hrun := (Run.single h₁).snoc h₂
  exact ⟨_, _, memory, hrun, rfl, rfl, (runsToItsEnd_iff MbedClient.reference_lawful hfresh
    hrun memory).1.mpr (.inr (by decide +kernel))⟩

/-- Two resources with the path 3200/0/5501: the second `add_resource` uses a NULL resource. -/
theorem not_runsToItsEnd_duplicate : ∃ (labels : List Label) (t : Context)
    (memory : MccResourceDef),
    Run (Step .reference) {} labels t ∧
    t.paths = [Position.path ⟨3200, 0, 5501⟩, Position.path ⟨3200, 0, 5501⟩] ∧
    ¬RunsToItsEnd .reference memory t := by
  let memory : MccResourceDef := ⟨⟨0, 0, 0⟩, empty, 0, [], false, none, none, none⟩
  let answer := cloudAnswers true none
  let create : Operation := .createResource ⟨true, 3⟩ (Position.path ⟨3200, 0, 5501⟩) empty
  let c₁ := (create.run .reference answer {}).2.2
  let c₂ := (create.run .reference answer c₁).2.2
  have h₁ : Step .reference {} ⟨create, _, none⟩ c₁ := step_of_run answer create {} rfl
  have h₂ : Step .reference c₁ ⟨create, _, none⟩ c₂ := step_of_run answer create c₁ rfl
  refine ⟨_, c₂, memory, (Run.single h₁).snoc h₂, rfl, fun hend => ?_⟩
  have hfault : Exec (registerAndConnect .reference memory) c₂ _ (.error .nullPointer) _ :=
    exec_of_run answer (by decide +kernel)
  obtain ⟨b, hb⟩ := hend _ _ _ hfault
  cases hb

/-! ## Where the resources end up -/

/-- The later iterations leave a bound resource and its place in the tree alone. -/
theorem registerResources_keeps (hm : m.Lawful) (hwf : c.heap.WellFormed c.self.objList)
    {j : Nat} (hj : j < i) {r : MbedCloudClientResource} {p : Position} {ρ : Ref M2MResource}
    (hr : c.self.resources[j]? = some r) (hp : c.heap.resourceAt c.self.objList p = some ρ)
    (h : Exec (registerResources m todo i d) c tr (.ok ()) t) :
    t.self.resources[j]? = some r ∧ t.heap.resourceAt t.self.objList p = some ρ := by
  have hinv := registerResources_ok (fun n c => j < n ∧ c.heap.WellFormed c.self.objList ∧
    c.self.resources[j]? = some r ∧ c.heap.resourceAt c.self.objList p = some ρ) h
    ⟨hj, hwf, hr, hp⟩ fun n d c c' ⟨hn, hwf, hr, hp⟩ hit => by
      obtain ⟨r', list, heap, -, rfl, hfree, hadded⟩ := hit.added hm hwf
      refine ⟨by omega, hadded.wellFormed, ?_, ?_⟩
      · rw [getElem?_resources_bind, if_neg (by omega)]
        exact hr
      · refine (hadded.resources _ _ _).trans ((if_neg ?_).trans hp)
        rintro ⟨ho, hi, hr⟩
        obtain rfl := Position.ext_toNat ho hi hr
        rw [hp] at hfree
        cases hfree
  exact hinv.2.2

/-- In a loop that ends, each resource is bound to what the tree has at the position passed. -/
theorem registerResources_places (hm : m.Lawful) (hwf : c.heap.WellFormed c.self.objList)
    {k : Nat} {a : AddResourceArgs} (h : Exec (registerResources m todo i d) c tr (.ok ()) t)
    (ha : (passed tr)[k]? = some a) :
    ∃ r ρ, t.self.resources[i + k]? = some r ∧ r.resource = some ρ ∧
      t.heap.resourceAt t.self.objList a.position = some ρ := by
  induction todo generalizing i d c tr k with
  | zero =>
    simp only [registerResources, exec_pure] at h
    simp [h.1, passed] at ha
  | succ todo ih =>
    rw [exec_registerResources_succ] at h
    split at h
    · simp at h
    · rename_i r hr
      obtain ⟨rest, rfl, h⟩ := h
      rw [passed_told_addResource] at ha
      split at h
      · simp at h
      · rename_i res list heap hadd
        obtain ⟨r', list', heap', hr', hbind, -, hadded⟩ :=
          (Iteration.intro hr hadd).added hm hwf
        obtain rfl := Option.some.inj (hr.symm.trans hr')
        rw [hbind] at h
        cases k with
        | zero =>
          rw [List.getElem?_cons_zero, Option.some.injEq] at ha
          subst ha
          have hbound : (c.bind i c.heap.resources.next list' heap').self.resources[i]? =
              some (r.setM2mResource c.heap.resources.next) := by
            simp [getElem?_resources_bind, hr]
          have hat : heap'.resourceAt list' (argsOf (r.getData i c.heap d)).position =
              some c.heap.resources.next := by
            simp [M2M.resourceAt, hadded.resources]
          obtain ⟨hbound', hat'⟩ :=
            registerResources_keeps hm hadded.wellFormed i.lt_succ_self hbound hat h
          exact ⟨_, _, hbound', rfl, hat'⟩
        | succ k =>
          rw [List.getElem?_cons_succ] at ha
          have hrest := ih hadded.wellFormed h ha
          rwa [Nat.add_right_comm, Nat.add_assoc] at hrest

/-! ## Triples of numbers -/

/-- The three numbers of a path, each between 0 and `INT_MAX`. -/
structure Triple (path : Text) where
  objectId : Nat
  instanceId : Nat
  resourceId : Nat
  spells : Spells path objectId instanceId resourceId
  inRange : objectId < 2 ^ 31 ∧ instanceId < 2 ^ 31 ∧ resourceId < 2 ^ 31

namespace Triple
variable {path path' : Text} (p : Triple path) (q : Triple path')

def numbers : Nat × Nat × Nat := (p.objectId, p.instanceId, p.resourceId)

/-- All three numbers are 16-bit ids. -/
def Fits : Prop := p.objectId < 2 ^ 16 ∧ p.instanceId < 2 ^ 16 ∧ p.resourceId < 2 ^ 16

/-- The numbers agree in the low 16 bits. -/
def Congruent : Prop :=
  p.objectId % 2 ^ 16 = q.objectId % 2 ^ 16 ∧ p.instanceId % 2 ^ 16 = q.instanceId % 2 ^ 16 ∧
    p.resourceId % 2 ^ 16 = q.resourceId % 2 ^ 16

def narrowed : Position :=
  ⟨UInt16.ofNat p.objectId, UInt16.ofNat p.instanceId, UInt16.ofNat p.resourceId⟩

theorem position_pathToIds (ids : Ids) : (pathToIds path ids).position = p.narrowed := by
  rw [pathToIds_spells p.spells p.inRange.1 p.inRange.2.1 p.inRange.2.2]
  simp [Ids.position, narrowed]

theorem narrowed_eq_iff : p.narrowed = q.narrowed ↔ p.Congruent q := by
  simp [narrowed, Congruent, ← UInt16.toNat_inj]

theorem isSpelledBy_narrowed_iff : p.narrowed.IsSpelledBy path ↔ p.Fits := by
  simp only [narrowed, Position.IsSpelledBy, UInt16.toNat_ofNat']
  constructor
  · intro h
    obtain ⟨ho, hi, hr⟩ := p.spells.unique h
    have := Nat.mod_lt p.objectId (by decide : 0 < 2 ^ 16)
    have := Nat.mod_lt p.instanceId (by decide : 0 < 2 ^ 16)
    have := Nat.mod_lt p.resourceId (by decide : 0 < 2 ^ 16)
    exact ⟨by omega, by omega, by omega⟩
  · rintro ⟨ho, hi, hr⟩
    rw [Nat.mod_eq_of_lt ho, Nat.mod_eq_of_lt hi, Nat.mod_eq_of_lt hr]
    exact p.spells

theorem numbers_eq_of_congruent (hp : p.Fits) (hq : q.Fits) (h : p.Congruent q) :
    p.numbers = q.numbers := by
  obtain ⟨ho, hi, hr⟩ := hp
  obtain ⟨ho', hi', hr'⟩ := hq
  simp only [Congruent, Nat.mod_eq_of_lt, ho, hi, hr, ho', hi', hr'] at h
  simp [numbers, h]

end Triple

theorem registerAndConnect_places (hm : cfg.mbedClient.Lawful) (hc : Unregistered c)
    {memory : MccResourceDef} {b : Bool} {k : Nat} {a : AddResourceArgs}
    (h : Exec (registerAndConnect cfg memory) c tr (.ok b) t) (ha : (passed tr)[k]? = some a) :
    ∃ r ρ, t.self.resources[k]? = some r ∧ r.resource = some ρ ∧
      t.heap.resourceAt t.self.objList a.position = some ρ := by
  obtain ⟨front, mid, back, rfl, hloop, hcall⟩ := exec_registerAndConnect_returns hc.notCalled h
  have hback : passed (told (.addObjects mid.self.objList) :: back) = [] :=
    (passed_callRegister hcall : passed back = [])
  rw [passed_append, hback, List.append_nil] at ha
  obtain ⟨r, ρ, hr, hρ, hat⟩ := registerResources_places hm hc.wired.wellFormed hloop ha
  have hsame : SameTree mid.withRegisterAndConnectCalled t := (sameTree_callRegister hcall).1
  rw [Nat.zero_add] at hr
  refine ⟨r, ρ, by rw [hsame.resources]; exact hr, hρ, ?_⟩
  rw [hsame.heap, hsame.objList]
  exact hat

/-- Two resources whose paths are different triples. Each is registered where its path says, and
so at different positions, exactly when all numbers fit in 16 bits; they meet at one position
exactly when the numbers agree in the low 16 bits. The position passed to `add_resource` is
where the tree has the resource when the call returns. -/
theorem registered_as_spelled_iff (hm : cfg.mbedClient.Lawful) {fresh : Context}
    {setup : List Label} (hfresh : fresh.Fresh) (hsetup : Run (SetupStep cfg) fresh setup c)
    {memory : MccResourceDef} {o : Except Fault Bool}
    (h : Exec (registerAndConnect cfg memory) c tr o t) {j k : Nat} {path path' : Text}
    (hj : c.paths[j]? = some path) (hk : c.paths[k]? = some path') (p : Triple path)
    (q : Triple path') (hne : p.numbers ≠ q.numbers) {a a' : AddResourceArgs}
    (ha : (passed tr)[j]? = some a) (ha' : (passed tr)[k]? = some a') :
    (a.position.IsSpelledBy path ∧ a'.position.IsSpelledBy path' ∧ a.position ≠ a'.position ↔
      p.Fits ∧ q.Fits) ∧
    (a.position = a'.position ↔ p.Congruent q) ∧
    ∀ b, o = .ok b → ∃ r ρ, t.self.resources[j]? = some r ∧ r.resource = some ρ ∧
      t.heap.resourceAt t.self.objList a.position = some ρ := by
  have hposition {k : Nat} {a : AddResourceArgs} {path : Text} (p : Triple path)
      (hk : c.paths[k]? = some path) (ha : (passed tr)[k]? = some a) :
      a.position = p.narrowed := by
    obtain ⟨r, heap, d, rfl, hr⟩ := registerAndConnect_passed h ha
    obtain rfl : r.path = path := by
      rw [Context.paths, List.getElem?_map, hr] at hk
      exact Option.some.inj hk
    exact p.position_pathToIds d.ids
  rw [hposition p hj ha, hposition q hk ha', p.isSpelledBy_narrowed_iff,
    q.isSpelledBy_narrowed_iff, ne_eq, p.narrowed_eq_iff]
  refine ⟨⟨fun ⟨hp, hq, _⟩ => ⟨hp, hq⟩, fun ⟨hp, hq⟩ => ⟨hp, hq, fun hsame => ?_⟩⟩, Iff.rfl, ?_⟩
  · exact hne (p.numbers_eq_of_congruent q hp hq hsame)
  · rintro b rfl
    obtain ⟨r, ρ, hr, hρ, hat⟩ :=
      registerAndConnect_places hm (unregistered_of_setup hfresh hsetup) h ha
    rw [hposition p hj ha] at hat
    exact ⟨r, ρ, hr, hρ, hat⟩

/-- The resources 65536/0/0 and 0/0/1. -/
theorem registered_as_spelled_iff_wide : ∃ (a a' : AddResourceArgs),
    (a.position.IsSpelledBy (triplePath 65536 0 0) ∧ a'.position.IsSpelledBy (triplePath 0 0 1) ∧
      a.position ≠ a'.position ↔ (65536 < 2 ^ 16 ∧ 0 < 2 ^ 16 ∧ 0 < 2 ^ 16) ∧
        0 < 2 ^ 16 ∧ 0 < 2 ^ 16 ∧ 1 < 2 ^ 16) := by
  let memory : MccResourceDef := ⟨⟨0, 0, 0⟩, empty, 0, [], false, none, none, none⟩
  let answer := cloudAnswers true none
  let create (path : Text) : Operation := .createResource ⟨false, 3⟩ path empty
  let c₁ := ((create (triplePath 65536 0 0)).run .reference answer {}).2.2
  let c₂ := ((create (triplePath 0 0 1)).run .reference answer c₁).2.2
  have hsetup : Run (SetupStep .reference) {} _ c₂ :=
    (Run.single ⟨by rintro ⟨_, ⟨⟩⟩, step_of_run answer (create (triplePath 65536 0 0)) {} rfl⟩).snoc
      ⟨by rintro ⟨_, ⟨⟩⟩, step_of_run answer (create (triplePath 0 0 1)) c₁ rfl⟩
  have hexec := exec_run answer (registerAndConnect .reference memory) c₂ []
  have hlength : (passed ((registerAndConnect .reference memory).run answer c₂ []).1).length =
      2 := by decide +kernel
  have hfresh : Context.Fresh {} := rfl
  exact ⟨_, _, (registered_as_spelled_iff MbedClient.reference_lawful hfresh hsetup hexec rfl rfl
    ⟨65536, 0, 0, spells_triplePath _ _ _, by decide⟩ ⟨0, 0, 1, spells_triplePath _ _ _, by decide⟩
    (by decide) (List.getElem?_eq_getElem (by omega : 0 < _))
    (List.getElem?_eq_getElem (by omega : 1 < _))).1⟩

/-- 65536/0/0 and 0/0/0 are both registered at 0/0/0, which the first does not spell. -/
theorem not_registered_as_spelled : ∃ (setup : List Label) (c : Context) (memory : MccResourceDef)
    (tr : List CloudEvent) (o : Except Fault Bool) (t : Context),
    Run (SetupStep .reference) {} setup c ∧
    c.paths = [triplePath 65536 0 0, triplePath 0 0 0] ∧
    Exec (registerAndConnect .reference memory) c tr o t ∧
    (passed tr).map (·.position) = [⟨0, 0, 0⟩, ⟨0, 0, 0⟩] ∧
    ¬Position.IsSpelledBy ⟨0, 0, 0⟩ (triplePath 65536 0 0) := by
  let memory : MccResourceDef := ⟨⟨0, 0, 0⟩, empty, 0, [], false, none, none, none⟩
  let answer := cloudAnswers true none
  let create (path : Text) : Operation := .createResource ⟨false, 3⟩ path empty
  let c₁ := ((create (triplePath 65536 0 0)).run .reference answer {}).2.2
  let c₂ := ((create (triplePath 0 0 0)).run .reference answer c₁).2.2
  have hsetup : Run (SetupStep .reference) {} _ c₂ :=
    (Run.single ⟨by rintro ⟨_, ⟨⟩⟩, step_of_run answer (create (triplePath 65536 0 0)) {} rfl⟩).snoc
      ⟨by rintro ⟨_, ⟨⟩⟩, step_of_run answer (create (triplePath 0 0 0)) c₁ rfl⟩
  refine ⟨_, c₂, memory, _, _, _, hsetup, rfl,
    exec_run answer (registerAndConnect .reference memory) c₂ [], by decide +kernel, fun h => ?_⟩
  exact absurd (h.unique (spells_triplePath 65536 0 0)).1 (by decide)

end SimpleCloudClient
