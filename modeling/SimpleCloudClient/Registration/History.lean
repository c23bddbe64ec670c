import SimpleCloudClient.Registration.Wiring

/-!
# The members of a resource, read off the history

Apart from its binding, a resource is what its constructor and the calls on it have made it. So
in every run the members of the resource with index `k` are obtained by replaying, on the `k`-th
resource created, the calls made on it.
-/
namespace SimpleCloudClient
open CString Memory Procedure SimpleMbedCloudClient Transition

/-- The resource without its binding. -/
def MbedCloudClientResource.unbound (r : MbedCloudClientResource) : MbedCloudClientResource :=
  { r with resource := none }

/-- What a call makes of the members of the resource, which the M2M resource does not decide. -/
def ResourceChange.member (cfg : Config) (r : MbedCloudClientResource) (change : ResourceChange) :
    MbedCloudClientResource := (change.apply cfg r {}).1

theorem apply_member (cfg : Config) (change : ResourceChange) (r : MbedCloudClientResource)
    (heap : M2M) : (change.apply cfg r heap).1 = change.member cfg r := by
  cases change <;> rfl

theorem unbound_member (cfg : Config) (change : ResourceChange) (r : MbedCloudClientResource) :
    (change.member cfg r).unbound = change.member cfg r.unbound := by
  cases change <;> rfl

/-- The calls of a list, made on the resource one after the other. -/
def applyChanges (cfg : Config) (changes : List ResourceChange) (r : MbedCloudClientResource) :
    MbedCloudClientResource :=
  changes.foldl (fun r change => change.member cfg r) r

@[simp] theorem applyChanges_concat (cfg : Config) (changes : List ResourceChange)
    (change : ResourceChange) (r : MbedCloudClientResource) :
    applyChanges cfg (changes ++ [change]) r = change.member cfg (applyChanges cfg changes r) := by
  simp [applyChanges]

/-- What the last call that sets it has set. -/
def latest {A : Type} (sets : ResourceChange → Option A) (changes : List ResourceChange) :
    Option A := (changes.filterMap sets).getLast?

/-- A member that each call either sets or keeps has the value set last. -/
theorem member_applyChanges {A : Type} {cfg : Config} (member : MbedCloudClientResource → A)
    (sets : ResourceChange → Option A)
    (h : ∀ r change, member (change.member cfg r) = (sets change).getD (member r))
    (changes : List ResourceChange) (r : MbedCloudClientResource) :
    member (applyChanges cfg changes r) = (latest sets changes).getD (member r) := by
  induction changes using List.reverseRecOn with
  | nil => rfl
  | append_singleton changes change ih =>
    rw [applyChanges_concat, h, ih]
    cases hset : sets change <;> simp [latest, List.filterMap_append, hset]

/-- The resource that a step creates. -/
def created (l : Label) : Option MbedCloudClientResource :=
  match l.op with
  | .createResource memory path name => some (.construct memory path name)
  | _ => none

/-- The call that a step makes on the resource with index `k`. -/
def changed (k : Nat) (l : Label) : Option ResourceChange :=
  match l.op with
  | .changeResource j change => if j = k then some change else none
  | _ => none

def creations (labels : List Label) : List MbedCloudClientResource := labels.filterMap created

def changesOf (k : Nat) (labels : List Label) : List ResourceChange :=
  labels.filterMap (changed k)

@[simp] theorem creations_concat (labels : List Label) (l : Label) :
    creations (labels ++ [l]) = creations labels ++ (created l).toList := by
  cases h : created l <;> simp [creations, h]

@[simp] theorem changesOf_concat (k : Nat) (labels : List Label) (l : Label) :
    changesOf k (labels ++ [l]) = changesOf k labels ++ (changed k l).toList := by
  cases h : changed k l <;> simp [changesOf, h]

/-- The calls made on the resource with index `k`, replayed on what was created. -/
def replayed (cfg : Config) (k : Nat) (labels : List Label) : Option MbedCloudClientResource :=
  (creations labels)[k]?.map (applyChanges cfg (changesOf k labels))

/-- The resources are the replayed ones, and no call has been made on one that does not exist. -/
structure Recorded (cfg : Config) (labels : List Label) (c : Context) : Prop where
  length : c.self.resources.length = (creations labels).length
  quiet : ∀ k, (creations labels).length ≤ k → changesOf k labels = []
  members : ∀ k, c.self.resources[k]?.map (·.unbound) = replayed cfg k labels

variable {cfg : Config} {c c' t : Context} {labels : List Label} {l : Label}

theorem Recorded.of_same (h : Recorded cfg labels c)
    (hsame : c'.self.resources.map (·.unbound) = c.self.resources.map (·.unbound))
    (hcreated : created l = none) (hchanged : ∀ k, changed k l = none) :
    Recorded cfg (labels ++ [l]) c' where
  length := by
    have := congrArg List.length hsame
    simpa [hcreated, h.length] using this
  quiet k hk := by
    simp only [creations_concat, hcreated, Option.toList_none, List.append_nil] at hk
    simp [hchanged, h.quiet k hk]
  members k := by
    rw [← List.getElem?_map, hsame, List.getElem?_map, h.members]
    simp [replayed, hcreated, hchanged]

/-- Binding the resources leaves their members alone. -/
theorem unbound_registerAndConnect {memory : MccResourceDef} {tr : List CloudEvent} {b : Bool}
    (h : Exec (registerAndConnect cfg memory) c tr (.ok b) c') :
    c'.self.resources.map (·.unbound) = c.self.resources.map (·.unbound) := by
  rcases exec_registerAndConnect.mp h with
    ⟨-, -, -, rfl⟩ | ⟨-, ⟨front, mid, back, -, hloop, hcall⟩ | ⟨fault, hfault, -⟩⟩
  · rfl
  · have hmid := registerResources_ok
      (fun _ u => u.self.resources.map (·.unbound) = c.self.resources.map (·.unbound)) hloop rfl
      fun i d u u' hu hit => by
        obtain ⟨-, -⟩ := hit
        refine Eq.trans (List.ext_getElem? fun j => ?_) hu
        rw [List.getElem?_map, List.getElem?_map, getElem?_resources_bind]
        split
        · cases u.self.resources[j]? <;> rfl
        · rfl
    have hsame : SameTree mid.withRegisterAndConnectCalled c' := (sameTree_callRegister hcall).1
    rw [hsame.resources]
    exact hmid
  · cases hfault

theorem Recorded.create (h : Recorded cfg labels c) {memory : RawMemory} {path name : Text}
    (hl : l.op = .createResource memory path name)
    (hc' : c'.self.resources = c.self.resources ++ [.construct memory path name]) :
    Recorded cfg (labels ++ [l]) c' := by
  have hcreated : created l = some (.construct memory path name) := by simp [created, hl]
  have hchanged : ∀ k, changed k l = none := by simp [changed, hl]
  have hlength := h.length
  refine ⟨by simp [hc', hcreated, hlength], fun k hk => ?_, fun k => ?_⟩
  · simp only [creations_concat, hcreated, Option.toList_some, List.length_append] at hk
    simp [hchanged, h.quiet k (by omega)]
  · have hold := h.members k
    simp only [replayed, creations_concat, changesOf_concat, hcreated, hchanged,
      Option.toList_some, Option.toList_none, List.append_nil, hc'] at hold ⊢
    by_cases hk : k < (creations labels).length
    · rw [List.getElem?_append_left (hlength ▸ hk), List.getElem?_append_left hk, hold]
    · rw [h.quiet k (by omega), List.getElem?_append_right (by omega),
        List.getElem?_append_right (by omega), hlength]
      cases k - (creations labels).length <;> rfl

theorem Recorded.change (h : Recorded cfg labels c) {i : Nat} {change : ResourceChange}
    {r : MbedCloudClientResource} (hl : l.op = .changeResource i change)
    (hr : c.self.resources[i]? = some r)
    (hc' : c'.self.resources = c.self.resources.set i (change.member cfg r)) :
    Recorded cfg (labels ++ [l]) c' := by
  have hcreated : created l = none := by simp [created, hl]
  have hchanged : ∀ k, changed k l = if i = k then some change else none := by simp [changed, hl]
  have hi := (List.getElem?_eq_some_iff.mp hr).1
  have hlength := h.length
  refine ⟨by simp [hc', hcreated, hlength], fun k hk => ?_, fun k => ?_⟩
  · simp only [creations_concat, hcreated, Option.toList_none, List.append_nil] at hk
    have hik : i ≠ k := by omega
    simp [hchanged, h.quiet k hk, hik]
  · have hold := h.members k
    simp only [replayed, creations_concat, changesOf_concat, hcreated, hchanged,
      Option.toList_none, List.append_nil, hc', List.getElem?_set] at hold ⊢
    split
    · subst k
      rw [hr, Option.map_some, eq_comm, Option.map_eq_some_iff] at hold
      obtain ⟨r₀, hr₀, hfold⟩ := hold
      simp [hr₀, hfold, unbound_member]
    · simpa using hold

theorem Recorded.step (h : Recorded cfg labels c) (hstep : Step cfg c l c') :
    Recorded cfg (labels ++ [l]) c' := by
  have hspec := hstep.spec
  have hsame := sameTree_of_step hstep
  obtain ⟨op, tr, result⟩ := l
  cases op with
  | registerAndConnect memory =>
    obtain ⟨b, -, hexec⟩ := hspec
    exact h.of_same (unbound_registerAndConnect hexec) rfl fun _ => rfl
  | createResource memory path name =>
    obtain ⟨-, rfl⟩ := hspec
    exact h.create rfl rfl
  | changeResource i change =>
    obtain ⟨-, r, hr, rfl⟩ := hspec
    exact h.change rfl hr (by simp only [apply_member])
  | cloudWrite i value =>
    obtain ⟨-, r, res, -, -, rfl⟩ := hspec
    exact h.of_same rfl rfl fun _ => rfl
  | _ => exact h.of_same (congrArg _ (hsame trivial).resources) rfl fun _ => rfl

theorem recorded_of_run {fresh : Context} (hfresh : fresh.Fresh)
    (hrun : Run (Step cfg) fresh labels t) : Recorded cfg labels t := by
  have hempty : fresh.self.resources = [] := by rw [hfresh]
  exact hrun.historyInvariant ⟨by simp [hempty, creations], fun _ _ => rfl,
    fun k => by simp [hempty, replayed, creations]⟩ fun _ _ _ _ h hstep => h.step hstep

end SimpleCloudClient
