import SimpleCloudClient.Bench.Answers
import SimpleCloudClient.Bench.System
import Mathlib.Data.List.ModifyLast

/-!
# The turns of the host

Each request that the host takes begins a turn, in which its callback runs. What the host says in a
turn depends on the request, on the turns before it and on what the callback has heard so far. This
holds of every run, whatever the line loses and whenever the board is reset.
-/
namespace SimpleCloudClient.Bench
open CString Procedure Conversation Transition

/-- What the callback that is running does in this step. -/
def Move.events : Move → List HostEvent
  | .host (some e) => [e]
  | _ => []

/-- A request begins a turn, and what its callback does belongs to it. -/
def Move.record (turns : List Turn) : Move → List Turn
  | .take m => turns ++ [⟨m, []⟩]
  | .host (some e) => turns.modifyLast fun turn => { turn with events := turn.events ++ [e] }
  | _ => turns

/-- The requests that the host has taken in this run, each with what its callback has done. -/
def turns (moves : List Move) : List Turn := moves.foldl Move.record []

variable {moves : List Move} {x : Move} {l l' : Link Message} {e : LinkEvent Message} {t : Nat}
  {m : Message} {host host' : SDKTests} {handler : Option (HostM Unit)} {before after : List Turn}
  {r : Message} {past : List HostEvent}

theorem turns_snoc : turns (moves ++ [x]) = x.record (turns moves) := by
  simp [turns]

/-- A step leaves all turns but the last alone. -/
theorem Move.record_append : x.record (before ++ ⟨r, past⟩ :: after) =
    before ++ ⟨r, past ++ if after = [] then x.events else []⟩ :: x.record after := by
  cases x with
  | host call =>
    cases call with
    | none => simp [record, events]
    | some e =>
      rw [record, List.modifyLast_append_of_right_ne_nil _ _ _ (by simp)]
      by_cases hafter : after = []
      · rw [hafter, if_pos rfl]
        exact congrArg _ (List.modifyLast_concat _ _ [])
      · rw [if_neg hafter, List.append_nil]
        exact congrArg _ (List.modifyLast_append_of_right_ne_nil _ [_] _ hafter)
  | _ => simp [record, events]

/-- Once a later turn has begun, it stays so. -/
theorem Move.record_ne_nil (h : after ≠ []) : x.record after ≠ [] := by
  obtain ⟨front, turn, rfl⟩ := (List.eq_nil_or_concat after).resolve_left h
  rw [List.concat_eq_append, record_append]
  simp

/-- When a turn begins, its callback has not done anything. -/
theorem events_of_begun {turn : Turn} (h : turn ∈ x.record []) : turn.events = [] := by
  cases x with
  | take m => rw [List.mem_singleton.mp h]
  | host call => cases call <;> cases h
  | _ => cases h

theorem Move.eq_of_events {e : HostEvent} (he : e ∈ x.events) : x = .host (some e) := by
  unfold events at he
  split at he
  · rw [List.mem_singleton.mp he]
  · cases he

/-- What a callback has done has happened in the run. -/
theorem mem_of_turns {turn : Turn} {e : HostEvent} (hturn : turn ∈ turns moves)
    (he : e ∈ turn.events) : .host (some e) ∈ moves := by
  induction moves using List.reverseRecOn generalizing turn with
  | nil => cases hturn
  | append_singleton moves x ih =>
    rw [turns_snoc] at hturn
    rcases List.eq_nil_or_concat (turns moves) with hnil | ⟨front, last, hlast⟩
    · rw [hnil] at hturn
      rw [events_of_begun hturn] at he
      cases he
    · rw [List.concat_eq_append] at hlast
      have hold {turn : Turn} (hmem : turn ∈ front ++ [last]) (he : e ∈ turn.events) :=
        List.mem_append_left [x] (ih (hlast ▸ hmem) he)
      rw [hlast, Move.record_append, if_pos rfl] at hturn
      rcases List.mem_append.mp hturn with hfront | hturn
      · exact hold (List.mem_append_left _ hfront) he
      rcases List.mem_cons.mp hturn with rfl | hnew
      · rcases List.mem_append.mp he with hpast | hnow
        · exact hold (List.mem_append_right _ (List.mem_singleton_self _)) hpast
        · rw [Move.eq_of_events hnow]
          exact List.mem_append_right _ (List.mem_singleton_self _)
      · rw [events_of_begun hnew] at he
        cases he

/-! ## What the host answers in a run -/

/-- The number of requests heard before this one that count up `iteration`. -/
def advanced (l : Link Message) (t : Nat) : Nat := (l.heard t).countP (·.key.advances)

/-- The turn of this request in the run: the turns before it, the state that they have left behind,
what the callback has done up to some point, and the rest. -/
structure Grounds (moves : List Move) (l : Link Message) (t : Nat) where
  before : List Turn
  h₀ : SDKTests
  r : Message
  past : List HostEvent
  rest : List HostEvent
  after : List Turn
  turns_eq : turns moves = before ++ ⟨r, past ++ rest⟩ :: after
  taken : t ∈ l.taken
  request : l.requests[t]? = some r
  heard : before.map (·.request) = l.heard t
  learned : Learned before h₀

theorem Grounds.iteration (g : Grounds moves l t) : g.h₀.iteration = advanced l t := by
  rw [g.learned.iteration, advanced, ← g.heard, List.countP_map]
  rfl

theorem Grounds.happened (g : Grounds moves l t) : ∀ e ∈ g.past, .host (some e) ∈ moves := by
  intro e he
  have hturn : ⟨g.r, g.past ++ g.rest⟩ ∈ turns moves := by
    rw [g.turns_eq]
    exact List.mem_append_right _ List.mem_cons_self
  exact mem_of_turns hturn (List.mem_append_left _ he)

/-- A name that the host knows has been registered before. -/
theorem Grounds.registered (g : Grounds moves l t) {name : List UInt8}
    (hname : g.h₀.deviceID = some name) :
    ∃ u < t, l.requests[u]? = some ⟨.verifyRegistration, name⟩ := by
  rw [g.learned.deviceID] at hname
  obtain ⟨turn, hfound, rfl⟩ := Option.map_eq_some_iff.mp hname
  have hkey : turn.request.key = .verifyRegistration := by simpa using List.find?_some hfound
  have hheard : turn.request ∈ l.heard t := by
    rw [← g.heard]
    exact List.mem_map_of_mem (List.mem_reverse.mp (List.mem_of_find?_eq_some hfound))
  obtain ⟨u, -, hlt, hu⟩ := Link.exists_of_heard hheard
  exact ⟨u, hlt, hu.trans (congrArg some (congrArg (Message.mk · _) hkey))⟩

theorem Grounds.named (g : Grounds moves l t) (name : List UInt8)
    (hname : g.h₀.deviceID = some name) : ⟨.verifyRegistration, name⟩ ∈ l.requests := by
  obtain ⟨u, -, hu⟩ := g.registered hname
  exact List.mem_of_getElem? hu

/-- The turn goes on, or another one. -/
def Grounds.later (g : Grounds moves l t) (hordered : l.Ordered) (hstep : l.Step e l')
    (ht : ∀ u m, e = .taken u m → t ≤ u) : Grounds (moves ++ [x]) l' t :=
  { g with
    rest := g.rest ++ if g.after = [] then x.events else []
    after := x.record g.after
    turns_eq := by rw [turns_snoc, g.turns_eq, Move.record_append, List.append_assoc]
    taken := hstep.taken_subset g.taken
    request := hstep.getElem? g.request
    heard := g.heard.trans (hordered.heard_step hstep ht).symm }

/-- Up to its last event. -/
def Grounds.all (g : Grounds moves l t) : Grounds moves l t :=
  { g with
    past := g.past ++ g.rest
    rest := []
    turns_eq := by rw [g.turns_eq, List.append_nil] }

/-- The message has been sent by the callback of this request, on good grounds. -/
def Answered (moves : List Move) (l : Link Message) (t : Nat) (m : Message) : Prop :=
  ∃ g : Grounds moves l t, [sending m] <+: g.rest ∧ Justified g.r g.h₀ g.past m

/-- The callback of this request has done what it asks for, and sent nothing without grounds. -/
def Finished (moves : List Move) (l : Link Message) (t : Nat) : Prop :=
  ∃ g : Grounds moves l t, g.rest = [] ∧ Concluded g.r g.h₀ g.past ∧ Grounded g.r g.h₀ g.past

/-- Its turn is over. -/
def Over (moves : List Move) (l : Link Message) (handler : Option (HostM Unit)) (t : Nat) : Prop :=
  ∃ g : Grounds moves l t, g.rest = [] ∧ (handler = none ∨ g.after ≠ []) ∧
    Concluded g.r g.h₀ g.past ∧ Grounded g.r g.h₀ g.past

theorem Answered.later (h : Answered moves l t m) (hordered : l.Ordered) (hstep : l.Step e l')
    (ht : ∀ u m, e = .taken u m → t ≤ u) : Answered (moves ++ [x]) l' t m := by
  obtain ⟨g, hsent, hg⟩ := h
  exact ⟨g.later hordered hstep ht, hsent.trans (List.prefix_append ..), hg⟩

/-- A turn that is over goes on only if the callback of the last one takes a step. -/
theorem Over.later (h : Over moves l handler t) (hordered : l.Ordered) (hstep : l.Step e l')
    (ht : ∀ u m, e = .taken u m → t ≤ u) {handler' : Option (HostM Unit)}
    (hx : handler = none → x.events = [])
    (hnext : handler = none → handler' = none ∨ ∀ turns, x.record turns ≠ []) :
    Over (moves ++ [x]) l' handler' t := by
  obtain ⟨g, hrest, hlast, hg⟩ := h
  refine ⟨g.later hordered hstep ht, ?_, ?_, hg⟩
  · rcases hlast with hnone | hafter
    · simp [Grounds.later, hrest, hx hnone]
    · simp [Grounds.later, hrest, hafter]
  · rcases hlast with hnone | hafter
    · exact (hnext hnone).imp_right fun hrecord => hrecord _
    · exact .inr (Move.record_ne_nil hafter)

/-- Every message of the host is justified, every request it has finished with is concluded, and
its state is what the requests have made it. -/
structure Served (moves : List Move) (l : Link Message) (host : SDKTests)
    (handler : Option (HostM Unit)) : Prop where
  ordered : l.Ordered
  answered : ∀ t m, (t, m) ∈ l.toClient → Answered moves l t m
  running : ∀ p, handler = some p → ∃ t, l.taken.getLast? = some t ∧
    ∃ g : Grounds moves l t, g.rest = [] ∧ g.after = [] ∧ Serves g.r g.h₀ g.past p host
  done : ∀ t ∈ l.taken, handler = none ∨ l.taken.getLast? ≠ some t → Over moves l handler t
  heard : handler = none → ∀ t, (∀ u ∈ l.taken, u < t) →
    (turns moves).map (·.request) = l.heard t
  idle : handler = none → Learned (turns moves) host

theorem Served.initial : Served [] {} {} none where
  ordered := Link.ordered_empty
  answered _ _ ht := absurd ht List.not_mem_nil
  running _ hp := nomatch hp
  done _ ht := absurd ht List.not_mem_nil
  heard _ _ _ := rfl
  idle _ := learned_nil

/-- What happens on the line between the steps of the host leaves its promises alone. -/
theorem Served.line (h : Served moves l host handler) (hstep : l.Step e l')
    (htaken : ∀ t m, e ≠ .taken t m) (hreplied : ∀ m, e ≠ .replied m) (hevents : x.events = [])
    (hrecord : ∀ turns, x.record turns = turns) : Served (moves ++ [x]) l' host handler := by
  obtain ⟨hclient, hsame⟩ := hstep.quiet htaken hreplied
  have hlater {t : Nat} : ∀ u m, e = .taken u m → t ≤ u := fun u m he => absurd he (htaken u m)
  have hturns : turns (moves ++ [x]) = turns moves := by rw [turns_snoc, hrecord]
  refine ⟨h.ordered.step hstep, fun t m ht => ?_, fun p hp => ?_, fun t ht hend => ?_,
    fun hidle t ht => ?_, fun hidle => hturns ▸ h.idle hidle⟩
  · exact (h.answered t m (hclient ht)).later h.ordered hstep hlater
  · obtain ⟨t, ht, g, hrest, hafter, hg⟩ := h.running p hp
    refine ⟨t, hsame ▸ ht, g.later h.ordered hstep hlater, ?_, ?_, hg⟩
    · simp [Grounds.later, hrest, hevents]
    · exact (hrecord _).trans hafter
  · exact (h.done t (hsame ▸ ht) (hsame ▸ hend)).later h.ordered hstep hlater (fun _ => hevents)
      .inl
  · rw [hturns, h.heard hidle t (hsame ▸ ht), h.ordered.heard_step hstep hlater]

/-- A request is taken. -/
theorem Served.take (h : Served moves l host none) (hstep : l.Step (.taken t m) l') :
    Served (moves ++ [.take m]) l' host (SDKTests.callback m) := by
  have hordered := h.ordered.step hstep
  have hmem := hstep.mem_toServer
  obtain ⟨htaken, hclient, hnext⟩ : l'.taken = l.taken ++ [t] ∧ l'.toClient = l.toClient ∧
      l'.requests = l.requests := by
    cases hstep
    exact ⟨rfl, rfl, rfl⟩
  have hbefore : ∀ u ∈ l.taken, u < t := fun u hu => h.ordered.lt_of_taken hu hmem
  have hrequest : l'.requests[t]? = some m := hnext ▸ h.ordered.requested hmem
  have hlast : l'.taken.getLast? = some t := by rw [htaken, List.getLast?_concat]
  have hlater {u : Nat} (hu : u ≤ t) : ∀ v m', LinkEvent.taken t m = .taken v m' → u ≤ v := by
    rintro _ _ ⟨⟩
    exact hu
  have hheard : (turns moves).map (·.request) = l'.heard t := by
    rw [h.heard rfl t hbefore, h.ordered.heard_step hstep (hlater (Nat.le_refl t))]
  have hturns : turns (moves ++ [.take m]) = turns moves ++ [⟨m, []⟩] := turns_snoc
  let ground : Grounds (moves ++ [.take m]) l' t :=
    ⟨turns moves, host, m, [], [], [], hturns, List.mem_of_getLast? hlast, hrequest, hheard,
      h.idle rfl⟩
  refine ⟨hordered, fun u m' hu => ?_, fun p hp => ?_, fun u hu hend => ?_, fun hnone u hu => ?_,
    fun hnone => ?_⟩
  · rw [hclient] at hu
    have hold := Nat.le_of_lt (hbefore u (h.ordered.answers hu))
    exact (h.answered u m' hu).later h.ordered hstep (hlater hold)
  · exact ⟨t, hlast, ground, rfl, rfl, serves_callback hp⟩
  · rw [htaken] at hu
    rcases List.mem_append.mp hu with hold | hnew
    · refine (h.done u hold (.inl rfl)).later h.ordered hstep
        (hlater (Nat.le_of_lt (hbefore u hold))) (fun _ => rfl) fun _ => .inr fun turns => ?_
      exact List.append_ne_nil_of_right_ne_nil turns (by simp)
    · obtain rfl := List.mem_singleton.mp hnew
      have hnone := hend.resolve_right fun hne => hne hlast
      exact ⟨ground, rfl, .inl hnone, (ends_of_ignored hnone).1, grounded_nil⟩
  · rw [hturns, List.map_append, hheard,
      hordered.heard_succ hlast hrequest (hu t (List.mem_of_getLast? hlast))]
    rfl
  · rw [hturns]
    exact (h.idle rfl).snoc (ends_of_ignored hnone).2

/-- A callback takes a step. -/
theorem Served.reply {p q : HostM Unit} {call : Option HostEvent}
    (h : Served moves l host (some p)) (hstep : Procedure.Step (p, host) call (q, host'))
    (hreply : Replies l call l') : Served (moves ++ [.host call]) l' host' (some q) := by
  obtain ⟨⟨e, hlink, htaken, -⟩, hsame, hanswers⟩ := hreply.link
  have hlater {t : Nat} : ∀ u m, e = .taken u m → t ≤ u := fun u m he => absurd he (htaken u m)
  have hevents : (Move.host call).events = call.toList := by cases call <;> rfl
  obtain ⟨t, ht, g, hrest, hafter, hserves⟩ := h.running p rfl
  obtain ⟨hnext, hjustified⟩ := hserves.step hstep
  let g' := g.later (x := .host call) h.ordered hlink hlater
  have hrest' : g'.rest = call.toList := by simp [g', Grounds.later, hrest, hafter, hevents]
  refine ⟨h.ordered.step hlink, fun u m hu => ?_, fun q' hq => ?_, fun u hu hend => ?_, nofun,
    nofun⟩
  · rcases hanswers u m hu with hold | ⟨hlast, rfl⟩
    · exact (h.answered u m hold).later h.ordered hlink hlater
    · obtain rfl := Option.some.inj (ht.symm.trans hlast)
      exact ⟨g', hrest' ▸ List.prefix_refl _, hjustified m rfl⟩
  · obtain rfl := Option.some.inj hq
    have hafter' : g'.after = [] := by
      change Move.record g.after _ = []
      rw [hafter]
      cases call <;> rfl
    refine ⟨t, hsame ▸ ht, g'.all, rfl, hafter', ?_⟩
    change Serves g.r g.h₀ (g.past ++ g'.rest) q host'
    exact hrest' ▸ hnext
  · exact (h.done u (hsame ▸ hu) (hsame ▸ hend.imp_left nofun)).later h.ordered hlink hlater nofun
      nofun

/-- A callback has ended. -/
theorem Served.handled (h : Served moves l host (some (.ret ()))) :
    Served (moves ++ [.handled]) l host none := by
  obtain ⟨t, ht, g, hrest, hafter, hg⟩ := h.running _ rfl
  obtain ⟨hconcluded, hlearns⟩ := hg.ends
  have hstill : l.Step .lost l := .still l
  have hl := h.line (x := .handled) hstill nofun nofun rfl fun _ => rfl
  have hturns : turns (moves ++ [.handled]) = g.before ++ [⟨g.r, g.past⟩] := by
    rw [turns_snoc, g.turns_eq, hrest, hafter, List.append_nil]
    rfl
  refine ⟨hl.ordered, hl.answered, nofun, fun u hu _ => ?_, fun _ u hu => ?_, fun _ => ?_⟩
  · by_cases hlast : l.taken.getLast? = some u
    · obtain rfl := Option.some.inj (ht.symm.trans hlast)
      refine ⟨g.later (x := .handled) h.ordered hstill nofun, ?_, .inl rfl, hconcluded, hg.grounded⟩
      simp [Grounds.later, hrest, Move.events]
    · obtain ⟨g, hrest, hafter, hg⟩ := hl.done u hu (.inr hlast)
      exact ⟨g, hrest, .inl rfl, hg⟩
  · rw [hturns, List.map_append, g.heard,
      h.ordered.heard_succ ht g.request (hu t (List.mem_of_getLast? ht))]
    rfl
  · exact hturns ▸ g.learned.snoc hlearns

/-! ## Runs -/

variable {boot : Image → DeviceM Outcome} {s s' : Setup}

theorem Served.step (h : Served moves s.link s.host s.handler) (hstep : SetupStep boot s x s') :
    Served (moves ++ [x]) s'.link s'.host s'.handler := by
  have hstill : s.link.Step .lost s.link := .still s.link
  cases hstep with
  | device _ htalks _ =>
    obtain ⟨e, hlink, htaken, hreplied, -⟩ := htalks.link
    exact h.line hlink htaken hreplied rfl fun _ => rfl
  | skip _ _ hlink => exact h.line hlink nofun nofun rfl fun _ => rfl
  | take hidle hlink =>
    rw [hidle] at h
    exact h.take hlink
  | host hrunning hproc hreply =>
    rw [hrunning] at h
    exact h.reply hproc hreply
  | handled hrunning =>
    rw [hrunning] at h
    exact h.handled
  | lose hlink => exact h.line hlink nofun nofun rfl fun _ => rfl
  | posted => exact h.line (.sent _ _) nofun nofun rfl fun _ => rfl
  | registered | reset | reboot => exact h.line hstill nofun nofun rfl fun _ => rfl

theorem served_of_run (hrun : Run (SetupStep boot) (.initial boot) moves s) :
    Served moves s.link s.host s.handler := by
  induction hrun with
  | refl => exact .initial
  | snoc _ hstep ih => exact ih.step hstep

/-- The answer to a request that has been taken stays one. -/
theorem Answered.step (h : Answered moves s.link t m) (hordered : s.link.Ordered)
    (hstep : SetupStep boot s x s') : Answered (moves ++ [x]) s'.link t m := by
  obtain ⟨e, hlink⟩ := hstep.link
  refine h.later hordered hlink ?_
  obtain ⟨g, -⟩ := h
  rintro u m rfl
  exact Nat.le_of_lt (hordered.lt_of_taken g.taken hlink.mem_toServer)

/-- The message that the device accepts in this step. -/
def Move.accepted : Move → Option Message
  | .device (some ⟨.parseKv _, m⟩) => some m.1
  | _ => none

/-- The messages that the device has accepted answer its requests, in the order in which it made
them, and each is justified. -/
def Attributed (moves : List Move) (l : Link Message) : Prop :=
  ∃ ts : List Nat, ts.Pairwise (· ≤ ·) ∧ (∀ t ∈ ts, t ≤ l.read) ∧
    List.Forall₂ (Answered moves l) ts (moves.filterMap Move.accepted)

/-- In a step that accepts no message. -/
theorem Attributed.later (h : Attributed moves s.link) (hordered : s.link.Ordered)
    (hstep : SetupStep boot s x s') (hx : x.accepted = none) :
    Attributed (moves ++ [x]) s'.link := by
  obtain ⟨e, hlink⟩ := hstep.link
  obtain ⟨ts, hsorted, hread, hanswers⟩ := h
  refine ⟨ts, hsorted, fun t ht => (hread t ht).trans (hordered.read_mono hlink), ?_⟩
  rw [List.filterMap_append, List.filterMap_cons_none hx, List.filterMap_nil, List.append_nil]
  exact hanswers.imp fun t m h => h.step hordered hstep

/-- In a step that accepts one. -/
theorem Attributed.accept (h : Attributed moves s.link)
    (hserved : Served moves s.link s.host s.handler) (hstep : SetupStep boot s x s')
    (hx : x.accepted = some m) (hlink : s.link.Step (.received t m) s'.link) :
    Attributed (moves ++ [x]) s'.link := by
  have hordered := hserved.ordered
  obtain ⟨ts, hsorted, hread, hanswers⟩ := h
  have hqueued := hlink.mem_toClient
  have hbefore : ∀ u ∈ ts, u ≤ t := fun u hu => (hread u hu).trans (hordered.unread hqueued)
  refine ⟨ts ++ [t], ?_, fun u hu => ?_, ?_⟩
  · exact List.pairwise_append.mpr ⟨hsorted, List.pairwise_singleton .., by simpa using hbefore⟩
  · rw [hlink.read_eq]
    rcases List.mem_append.mp hu with hold | hnew
    · exact hbefore u hold
    · exact (List.mem_singleton.mp hnew).le
  · rw [List.filterMap_append, List.filterMap_cons_some hx, List.filterMap_nil]
    have hold := hanswers.imp fun u m' (h : Answered moves s.link u m') => h.step hordered hstep
    exact List.rel_append hold (.cons ((hserved.answered t m hqueued).step hordered hstep) .nil)

theorem attributed_of_run (hrun : Run (SetupStep boot) (.initial boot) moves s) :
    Attributed moves s.link := by
  induction hrun with
  | refl => exact ⟨[], .nil, nofun, .nil⟩
  | @snoc moves s x s' hrun hstep ih =>
    have hserved := served_of_run hrun
    cases hx : x.accepted with
    | none => exact ih.later hserved.ordered hstep hx
    | some m =>
      unfold Move.accepted at hx
      split at hx
      · rename_i keys m'
        obtain rfl := Option.some.inj hx
        obtain ⟨-, htalks, -⟩ := hstep.device_step
        obtain ⟨t, hlink⟩ : ∃ t, s.link.Step (.received t m'.1) s'.link := htalks
        exact ih.accept hserved hstep rfl hlink
      · cases hx

theorem finished_of_run (hrun : Run (SetupStep boot) (.initial boot) moves s)
    (ht : t ∈ s.link.taken) (hend : s.handler = none ∨ s.link.taken.getLast? ≠ some t) :
    Finished moves s.link t := by
  obtain ⟨g, hrest, -, hg⟩ := (served_of_run hrun).done t ht hend
  exact ⟨g, hrest, hg⟩

/-- Every message that the device has accepted is an answer. -/
theorem Attributed.answered (h : Attributed moves l) (hm : m ∈ moves.filterMap Move.accepted) :
    ∃ t, Answered moves l t m := by
  obtain ⟨ts, -, -, hanswers⟩ := h
  obtain ⟨⟨i, hi⟩, rfl⟩ := List.get_of_mem hm
  exact ⟨_, hanswers.get (hanswers.length_eq ▸ hi) hi⟩

theorem accepted_of_run (hrun : Run (SetupStep boot) (.initial boot) moves s) {keys : List Key}
    {m : { m : Message // m.key ∈ keys }} (hm : .device (some ⟨.parseKv keys, m⟩) ∈ moves) :
    ∃ t, Answered moves s.link t m.1 :=
  (attributed_of_run hrun).answered (List.mem_filterMap.mpr ⟨_, hm, rfl⟩)

/-- Whatever is lost, whenever the board is reset and whatever its programs are: the device reads
the answers in the order of its requests, each was sent in the turn of its request and on its
grounds, and by the end of its turn each callback has done what its request asks for. -/
theorem host_of_run (hrun : Run (SetupStep boot) (.initial boot) moves s) :
    Attributed moves s.link ∧
      ∀ t ∈ s.link.taken, s.handler = none ∨ s.link.taken.getLast? ≠ some t →
        Finished moves s.link t :=
  ⟨attributed_of_run hrun, fun _ => finished_of_run hrun⟩

theorem host_of_run_calm : ∃ moves s t, Finished moves (Setup.link s) t ∧
    ∃ g : Grounds moves (Setup.link s) t, g.r.key = .verifyLwm2mGetTest ∧
      Got g.past (.getResourceValue g.h₀.deviceID g.r.value) (ascii "test0") := by
  let schedule := drive (connectProgram 240 zeroed) 300 (.initial (connectProgram 240 zeroed))
  have hidle : schedule.2.handler.isNone = true := by decide +kernel
  have hread : ⟨.getValue, ascii "test0"⟩ ∈ schedule.1.filterMap Move.accepted := by decide +kernel
  obtain ⟨hanswers, hfinished⟩ := host_of_run (run_drive 300 (.initial (connectProgram 240 zeroed)))
  obtain ⟨t, g, -, hkey, hgot⟩ := hanswers.answered hread
  exact ⟨_, _, t, hfinished t g.taken (.inl (Option.isNone_iff_eq_none.mp hidle)), g, hkey, hgot⟩

end SimpleCloudClient.Bench
