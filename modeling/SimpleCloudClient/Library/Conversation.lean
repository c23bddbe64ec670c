import SimpleCloudClient.Library.Transition
import Mathlib.Data.List.Pairwise
import Mathlib.Data.List.Basic

/-!
# Requests and answers over a line that loses messages

A client sends requests; a server takes one at a time and answers it with any number of messages.
Each direction is a queue that may lose messages but does not reorder them. A request is known by
its number, and an answer carries the number of the request it answers. The numbers are not part
of the messages; they are what the parties cannot see. Whatever the two parties do, the answers
that the client reads belong to requests it has made, in the order in which it made them.
-/
namespace Conversation

/-- The line between client and server. -/
structure Link (M : Type*) where
  requests : List M := []
  toServer : List (Nat × M) := []
  taken : List Nat := []
  toClient : List (Nat × M) := []
  /-- The number of the request that the last message read by the client answers. -/
  read : Nat := 0

variable {M : Type*} {l l' : Link M} {m : M} {t : Nat}

/-- The client makes a request. -/
def Link.send (l : Link M) (m : M) : Link M :=
  { l with
    requests := l.requests ++ [m]
    toServer := l.toServer ++ [(l.requests.length, m)] }

/-- The server answers the request that it has taken last. -/
def Link.reply (l : Link M) (m : M) : Link M :=
  { l with toClient := l.toClient ++ (l.taken.getLast?.map (·, m)).toList }

inductive LinkEvent (M : Type*) where
  | sent (m : M)
  | taken (t : Nat) (m : M)
  | replied (m : M)
  | received (t : Nat) (m : M)
  | lost

inductive Link.Step : Link M → LinkEvent M → Link M → Prop where
  | sent (l : Link M) (m : M) : Step l (.sent m) (l.send m)
  | taken {l : Link M} {t : Nat} {m : M} {rest : List (Nat × M)} : l.toServer = (t, m) :: rest →
      Step l (.taken t m) { l with toServer := rest, taken := l.taken ++ [t] }
  | replied (l : Link M) (m : M) : Step l (.replied m) (l.reply m)
  | received {l : Link M} {t : Nat} {m : M} {rest : List (Nat × M)} :
      l.toClient = (t, m) :: rest →
      Step l (.received t m) { l with toClient := rest, read := t }
  | lost {l : Link M} {toServer toClient : List (Nat × M)} : toServer.Sublist l.toServer →
      toClient.Sublist l.toClient → Step l .lost { l with toServer, toClient }

/-- Nothing need be lost. -/
theorem Link.Step.still (l : Link M) : l.Step .lost l :=
  .lost (List.Sublist.refl _) (List.Sublist.refl _)

/-- The numbers in the queues are in order and belong to requests. -/
structure Link.Ordered (l : Link M) : Prop where
  requested : ∀ {t m}, (t, m) ∈ l.toServer → l.requests[t]? = some m
  increasing : (l.taken ++ l.toServer.map (·.1)).Pairwise (· < ·)
  bound : ∀ {t}, t ∈ l.taken → t < l.requests.length
  answers : ∀ {t m}, (t, m) ∈ l.toClient → t ∈ l.taken
  sorted : (l.toClient.map (·.1)).Pairwise (· ≤ ·)
  unread : ∀ {t m}, (t, m) ∈ l.toClient → l.read ≤ t
  read : l.read = 0 ∨ l.read ∈ l.taken

theorem Link.ordered_empty : ({} : Link M).Ordered := by
  constructor <;> simp

theorem Link.Ordered.lt_length (h : l.Ordered) (ht : (t, m) ∈ l.toServer) :
    t < l.requests.length :=
  (List.getElem?_eq_some_iff.mp (h.requested ht)).1

/-- Requests are taken in the order of their numbers. -/
theorem Link.Ordered.lt_of_taken (h : l.Ordered) {u : Nat} (hu : u ∈ l.taken)
    (ht : (t, m) ∈ l.toServer) : u < t := by
  have hcross := (List.pairwise_append.mp h.increasing).2.2
  exact hcross u hu t (List.mem_map_of_mem ht)

theorem Link.Ordered.le_getLast (h : l.Ordered) {u : Nat} (hu : u ∈ l.taken)
    (ht : l.taken.getLast? = some t) : u ≤ t := by
  obtain ⟨front, hfront⟩ := List.getLast?_eq_some_iff.mp ht
  have hincreasing := (List.pairwise_append.mp h.increasing).1
  rw [hfront] at hu hincreasing
  rcases List.mem_append.mp hu with hold | hlast
  · exact Nat.le_of_lt ((List.pairwise_append.mp hincreasing).2.2 u hold t (by simp))
  · exact Nat.le_of_eq (List.mem_singleton.mp hlast)

theorem Link.Ordered.read_le (h : l.Ordered) (ht : l.taken.getLast? = some t) : l.read ≤ t := by
  rcases h.read with hzero | htaken
  · omega
  · exact h.le_getLast htaken ht

theorem Link.Ordered.send (h : l.Ordered) (m : M) : (l.send m).Ordered where
  requested ht := by
    rcases List.mem_append.mp ht with hold | hnew
    · rw [Link.send, List.getElem?_append_left (h.lt_length hold)]
      exact h.requested hold
    · obtain ⟨rfl, rfl⟩ := Prod.mk.inj (List.mem_singleton.mp hnew)
      simp [Link.send]
  increasing := by
    change (l.taken ++ (l.toServer ++ [(l.requests.length, m)]).map (·.1)).Pairwise (· < ·)
    rw [List.map_append, ← List.append_assoc, List.pairwise_append]
    refine ⟨h.increasing, by simp, fun u hu v hv => ?_⟩
    obtain rfl : v = l.requests.length := by simpa using hv
    rcases List.mem_append.mp hu with htaken | hqueue
    · exact h.bound htaken
    · obtain ⟨p, hp, rfl⟩ := List.mem_map.mp hqueue
      exact h.lt_length (m := p.2) hp
  bound ht := by
    have hold := h.bound ht
    simp only [Link.send, List.length_append, List.length_singleton]
    omega
  answers := h.answers
  sorted := h.sorted
  unread := h.unread
  read := h.read

theorem Link.Ordered.reply (h : l.Ordered) (m : M) : (l.reply m).Ordered := by
  have hnew : ∀ {t : Nat} {m' : M}, (t, m') ∈ (l.reply m).toClient →
      (t, m') ∈ l.toClient ∨ l.taken.getLast? = some t := by
    intro t m' ht
    rcases List.mem_append.mp ht with hold | hlast
    · exact .inl hold
    · right
      cases hget : l.taken.getLast? with
      | none => simp [hget] at hlast
      | some u =>
        obtain ⟨rfl, -⟩ : t = u ∧ m' = m := by simpa [hget] using hlast
        rfl
  refine ⟨h.requested, h.increasing, h.bound, fun ht => ?_, ?_, fun ht => ?_, h.read⟩
  · rcases hnew ht with hold | hlast
    · exact h.answers hold
    · exact List.mem_of_getLast? hlast
  · change ((l.toClient ++ (l.taken.getLast?.map (·, m)).toList).map (·.1)).Pairwise (· ≤ ·)
    rw [List.map_append, List.pairwise_append]
    refine ⟨h.sorted, ?_, fun u hu v hv => ?_⟩
    · cases l.taken.getLast? <;> simp
    · obtain ⟨p, hp, rfl⟩ := List.mem_map.mp hu
      cases hget : l.taken.getLast? with
      | none => simp [hget] at hv
      | some w =>
        obtain rfl : v = w := by simpa [hget] using hv
        exact h.le_getLast (h.answers (m := p.2) hp) hget
  · rcases hnew ht with hold | hlast
    · exact h.unread hold
    · exact h.read_le hlast

/-- The step lemma. -/
theorem Link.Ordered.step (h : l.Ordered) {e : LinkEvent M} (hstep : l.Step e l') : l'.Ordered := by
  cases hstep with
  | sent m => exact h.send m
  | replied m => exact h.reply m
  | @taken t m rest hqueue =>
    have hmem : (t, m) ∈ l.toServer := by simp [hqueue]
    have hincreasing := h.increasing
    rw [hqueue, List.map_cons] at hincreasing
    refine ⟨fun ht => h.requested (by simp [hqueue, ht]), by simpa using hincreasing,
      fun ht => ?_, fun ht => List.mem_append_left _ (h.answers ht), h.sorted, h.unread,
      h.read.imp_right fun hread => List.mem_append_left _ hread⟩
    rcases List.mem_append.mp ht with hold | hnew
    · exact h.bound hold
    · rw [List.mem_singleton.mp hnew]
      exact h.lt_length hmem
  | @received t m rest hqueue =>
    have hmem : (t, m) ∈ l.toClient := by simp [hqueue]
    have hsorted := h.sorted
    rw [hqueue, List.map_cons, List.pairwise_cons] at hsorted
    have hrest {p : Nat × M} (hp : p ∈ rest) : p ∈ l.toClient := hqueue ▸ .tail _ hp
    exact ⟨h.requested, h.increasing, h.bound, fun ht => h.answers (hrest ht),
      hsorted.2, fun ht => hsorted.1 _ (List.mem_map_of_mem ht), .inr (h.answers hmem)⟩
  | @lost toServer toClient hserver hclient =>
    refine ⟨fun ht => h.requested (hserver.subset ht), ?_, h.bound,
      fun ht => h.answers (hclient.subset ht), h.sorted.sublist (hclient.map _),
      fun ht => h.unread (hclient.subset ht), h.read⟩
    exact h.increasing.sublist ((List.Sublist.refl _).append (hserver.map _))

/-- The client reads answers in the order of its requests. -/
theorem Link.Ordered.read_mono (h : l.Ordered) {e : LinkEvent M} (hstep : l.Step e l') :
    l.read ≤ l'.read := by
  cases hstep with
  | received hqueue => exact h.unread (hqueue ▸ List.mem_cons_self ..)
  | _ => exact Nat.le_refl _

/-! ## What the server has heard -/

theorem Link.Step.getElem? {e : LinkEvent M} (hstep : l.Step e l') (h : l.requests[t]? = some m) :
    l'.requests[t]? = some m := by
  cases hstep with
  | sent m' =>
    obtain ⟨ht, -⟩ := List.getElem?_eq_some_iff.mp h
    rw [Link.send, List.getElem?_append_left ht]
    exact h
  | _ => exact h

theorem Link.Step.requests_eq (hstep : l.Step (.sent m) l') :
    l'.requests = l.requests ++ [m] := by
  cases hstep
  rfl

theorem Link.Step.mem_toServer (hstep : l.Step (.taken t m) l') : (t, m) ∈ l.toServer := by
  cases hstep with
  | taken hqueue => exact hqueue ▸ List.mem_cons_self ..

theorem Link.Step.mem_toClient (hstep : l.Step (.received t m) l') : (t, m) ∈ l.toClient := by
  cases hstep with
  | received hqueue => exact hqueue ▸ List.mem_cons_self ..

theorem Link.Step.read_eq (hstep : l.Step (.received t m) l') : l'.read = t := by
  cases hstep
  rfl

theorem Link.Step.requests_cases {e : LinkEvent M} (hstep : l.Step e l') :
    l'.requests = l.requests ∨ ∃ m, e = .sent m ∧ l'.requests = l.requests ++ [m] := by
  cases hstep with
  | sent m => exact .inr ⟨m, rfl, rfl⟩
  | _ => exact .inl rfl

theorem Link.Step.getElem?_cases {e : LinkEvent M} (hstep : l.Step e l')
    (h : l'.requests[t]? = some m) : l.requests[t]? = some m ∨
      e = .sent m ∧ t = l.requests.length := by
  rcases hstep.requests_cases with hsame | ⟨m', rfl, hnew⟩
  · exact .inl (hsame ▸ h)
  · rw [hnew, List.getElem?_append] at h
    split at h
    · exact .inl h
    · obtain ⟨hlt, rfl⟩ := List.getElem?_eq_some_iff.mp h
      rw [List.length_singleton] at hlt
      exact .inr ⟨by simp, by omega⟩

/-- Between the steps of the server its answers only get fewer. -/
theorem Link.Step.quiet {e : LinkEvent M} (hstep : l.Step e l') (htaken : ∀ t m, e ≠ .taken t m)
    (hreplied : ∀ m, e ≠ .replied m) : l'.toClient ⊆ l.toClient ∧ l'.taken = l.taken := by
  cases hstep with
  | sent m => exact ⟨List.Subset.refl _, rfl⟩
  | taken _ => exact absurd rfl (htaken _ _)
  | replied m => exact absurd rfl (hreplied m)
  | received hqueue => exact ⟨hqueue ▸ List.subset_cons_self .., rfl⟩
  | lost _ hclient => exact ⟨hclient.subset, rfl⟩

theorem Link.Step.taken_subset {e : LinkEvent M} (hstep : l.Step e l') : l.taken ⊆ l'.taken := by
  cases hstep with
  | taken _ => exact List.subset_append_left ..
  | _ => exact List.Subset.refl _

/-- The requests that the server has taken before the one with this number. -/
def Link.heard (l : Link M) (t : Nat) : List M :=
  (l.taken.filter (· < t)).filterMap (l.requests[·]?)

theorem Link.mem_heard {u : Nat} (hu : u ∈ l.taken) (hut : u < t) (hm : l.requests[u]? = some m) :
    m ∈ l.heard t :=
  List.mem_filterMap.mpr ⟨u, List.mem_filter.mpr ⟨hu, decide_eq_true hut⟩, hm⟩

theorem Link.exists_of_heard (h : m ∈ l.heard t) : ∃ u ∈ l.taken, u < t ∧
    l.requests[u]? = some m := by
  obtain ⟨u, hu, hm⟩ := List.mem_filterMap.mp h
  obtain ⟨htaken, hlt⟩ := List.mem_filter.mp hu
  exact ⟨u, htaken, of_decide_eq_true hlt, hm⟩

/-- Increasing positions pick out a sublist. -/
theorem filterMap_getElem?_sublist {requests : List M} {positions : List Nat} {k : Nat}
    (hincreasing : positions.Pairwise (· < ·)) (hk : ∀ i ∈ positions, k ≤ i) :
    (positions.filterMap (requests[·]?)).Sublist (requests.drop k) := by
  induction positions generalizing k with
  | nil => exact List.nil_sublist _
  | cons i rest ih =>
    obtain ⟨hlt, hrest⟩ := List.pairwise_cons.mp hincreasing
    have htail := ih hrest fun j hj => Nat.succ_le_of_lt (hlt j hj)
    have hdrop : (requests.drop i).Sublist (requests.drop k) :=
      List.drop_sublist_drop_left _ (hk i (by simp))
    rw [List.filterMap_cons]
    cases hi : requests[i]? with
    | none =>
      rw [List.drop_add_one_eq_tail_drop] at htail
      exact htail.trans ((List.tail_sublist _).trans hdrop)
    | some m =>
      obtain ⟨hlength, rfl⟩ := List.getElem?_eq_some_iff.mp hi
      refine List.Sublist.trans ?_ hdrop
      rw [List.drop_eq_getElem_cons hlength]
      exact htail.cons_cons _

theorem Link.Ordered.heard_sublist (h : l.Ordered) (t : Nat) :
    (l.heard t).Sublist l.requests := by
  have hincreasing := (List.pairwise_append.mp h.increasing).1.filter (· < t)
  have hsub : (l.heard t).Sublist (l.requests.drop 0) :=
    filterMap_getElem?_sublist hincreasing fun _ _ => Nat.zero_le _
  rwa [List.drop_zero] at hsub

/-- What has been heard before a request stays the same once later requests are taken. -/
theorem Link.Ordered.heard_step (h : l.Ordered) {e : LinkEvent M} (hstep : l.Step e l') {u : Nat}
    (hu : ∀ t m, e = .taken t m → u ≤ t) : l'.heard u = l.heard u := by
  cases hstep with
  | sent m =>
    refine List.filterMap_congr fun v hv => ?_
    exact List.getElem?_append_left (h.bound (List.mem_filter.mp hv).1)
  | @taken t m rest hqueue =>
    have hle := hu t m rfl
    change ((l.taken ++ [t]).filter (· < u)).filterMap _ = _
    have hnew : [t].filter (· < u) = [] := by simpa using hle
    rw [List.filter_append, hnew, List.append_nil]
    rfl
  | _ => rfl

/-- A request that is taken is heard by those after it. -/
theorem Link.Ordered.heard_succ (h : l.Ordered) (ht : l.taken.getLast? = some t)
    (hm : l.requests[t]? = some m) {u : Nat} (htu : t < u) : l.heard u = l.heard t ++ [m] := by
  obtain ⟨front, hfront⟩ := List.getLast?_eq_some_iff.mp ht
  have hincreasing := (List.pairwise_append.mp h.increasing).1
  rw [hfront, List.pairwise_append] at hincreasing
  have hlt : ∀ v ∈ front, v < t := fun v hv => hincreasing.2.2 v hv t (by simp)
  have hbefore : front.filter (· < t) = front :=
    List.filter_eq_self.mpr fun v hv => decide_eq_true (hlt v hv)
  have hafter : front.filter (· < u) = front :=
    List.filter_eq_self.mpr fun v hv => decide_eq_true (Nat.lt_trans (hlt v hv) htu)
  simp [heard, hfront, hbefore, hafter, htu, hm]

end Conversation
