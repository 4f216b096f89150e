import UniShare.Daemon
import UniShare.Lib.Refinement

/-!
# Registration with kubelet

`registerToKubelet` of `main.go`, which `Daemon` takes as one step, as the calls that it makes: it
dials, and then registers the servers of `resourceSrv` one after the other, in the order in which Go
happens to visit the map. Kubelet keeps what is registered in memory and may stop and start between
any two steps. A call may be answered by another kubelet than the one that was dialled, since a gRPC
connection is made again by itself; it may fail after kubelet has carried it out; and an answer may
arrive after kubelet has gone.
-/

namespace UniShare.Registration

open Lib Daemon

/-! ## The machine -/

/-- Where `registerToKubelet` is: not called or still dialling, ahead of the next server with those
still to be visited, waiting for the answer about a server, or with a good answer. -/
inductive Call where
  | idle
  | visiting (remaining : List Resource)
  | sent (resource : Resource) (remaining : List Resource)
  | answered (remaining : List Resource)
  deriving DecidableEq, Repr

/-- The daemon, the call of `registerToKubelet`, whether kubelet is up, and the endpoints that it
knows. -/
structure State where
  daemon : Daemon.State
  call : Call
  up : Bool
  endpoints : Resource → Option String

/-- The daemon has just been started, whether kubelet is up or not, and whatever it knows. -/
def State.initial (files : String → Option Nat) (inodes : Nat) (up : Bool)
    (endpoints : Resource → Option String) : State :=
  ⟨Daemon.State.initial files inodes, .idle, up, endpoints⟩

/-- Kubelet stops or starts, main or a goroutine of `Run` goes on outside of `registerToKubelet`, or
`registerToKubelet` does: it has dialled or failed to, sends the request for a server, has it
carried out by kubelet, reads the answer, fails, or returns without an error. -/
inductive Action where
  | stop
  | start
  | watch
  | restart
  | event
  | run (resource : Resource) (i : Nat)
  | dial (ok : Bool)
  | send (resource : Resource)
  | handle
  | receive
  | fail
  | done
  deriving DecidableEq, Repr

/-- A step of the daemon outside of `registerToKubelet`. -/
def State.daemonStep (state : State) (action : Daemon.Action) : Option State :=
  (Daemon.step state.daemon action).map fun daemon => { state with daemon := daemon }

/-- The return of `registerToKubelet`. -/
def State.returns (state : State) (ok : Bool) : Option State :=
  (Daemon.step state.daemon (.register ok)).map fun daemon =>
    { state with daemon := daemon, call := .idle }

/-- One transition, `none` when the action is not possible. -/
def step (state : State) : Action → Option State
  | .stop => if state.up then some { state with up := false, endpoints := fun _ => none } else none
  | .start =>
      if state.up then none
      else some { state with
        daemon := kubeletRestart state.daemon, up := true, endpoints := fun _ => none }
  | .watch => state.daemonStep .watch
  | .restart => state.daemonStep .restart
  | .event => state.daemonStep .event
  | .run resource i => state.daemonStep (.run resource i)
  | .dial ok =>
      if state.daemon.point = .register ∧ state.call = .idle then
        -- `WithBlock`: the dial succeeds only once there is a connection
        if ok then if state.up then some { state with call := .visiting [.core, .mem] } else none
        else state.returns false
      else none
  | .send resource =>
      match state.call with
      | .visiting remaining =>
          if resource ∈ remaining then
            some { state with call := .sent resource (remaining.erase resource) }
          else none
      | _ => none
  | .handle =>
      match state.call with
      | .sent resource remaining =>
          if state.up then
            some { state with
              call := .answered remaining
              endpoints := Function.update state.endpoints resource (some resource.socketName) }
          else none
      | _ => none
  | .receive =>
      match state.call with
      | .answered remaining => some { state with call := .visiting remaining }
      | _ => none
  | .fail =>
      match state.call with
      | .sent _ _ | .answered _ => state.returns false
      | _ => none
  | .done =>
      match state.call with
      | .visiting [] => state.returns true
      | _ => none

/-- What an action is for the daemon that takes `registerToKubelet` as one step. -/
def Action.daemon : Action → List Daemon.Action
  | .start => [.kubelet]
  | .watch => [.watch]
  | .restart => [.restart]
  | .event => [.event]
  | .run resource i => [.run resource i]
  | .dial false | .fail => [.register false]
  | .done => [.register true]
  | .stop | .dial true | .send _ | .handle | .receive => []

/-! ## The daemon inside -/

section Daemon

variable {state next : State} {action : Action}

/-- A step outside of `registerToKubelet` changes nothing but the daemon. -/
theorem daemon_step_eq_some {daemonAction : Daemon.Action} :
    state.daemonStep daemonAction = some next ↔
      Daemon.step state.daemon daemonAction = some next.daemon ∧
        next = { state with daemon := next.daemon } := by
  simp only [State.daemonStep, Option.map_eq_some_iff]
  constructor
  · rintro ⟨daemon, hdaemon, rfl⟩
    exact ⟨hdaemon, rfl⟩
  · rintro ⟨hdaemon, hnext⟩
    exact ⟨next.daemon, hdaemon, hnext.symm⟩

/-- A return changes nothing but the daemon and the call. -/
theorem returns_eq_some {ok : Bool} :
    state.returns ok = some next ↔
      Daemon.step state.daemon (.register ok) = some next.daemon ∧
        next = { state with daemon := next.daemon, call := .idle } := by
  simp only [State.returns, Option.map_eq_some_iff]
  constructor
  · rintro ⟨daemon, hdaemon, rfl⟩
    exact ⟨hdaemon, rfl⟩
  · rintro ⟨hdaemon, hnext⟩
    exact ⟨next.daemon, hdaemon, hnext.symm⟩

/-- The effects of a step: kubelet stops or starts, the daemon goes on outside of the call, the call
goes on, or it returns. -/
inductive Effect (state next : State) : Action → Prop where
  | stop : next = { state with up := false, endpoints := fun _ => none } → Effect state next .stop
  | start : next = { state with
      daemon := kubeletRestart state.daemon, up := true, endpoints := fun _ => none } →
      Effect state next .start
  | outside (taken : Action) (daemonAction) : taken.daemon = [daemonAction] →
      (∀ ok, daemonAction ≠ .register ok) → daemonAction ≠ .kubelet →
      Daemon.step state.daemon daemonAction = some next.daemon →
      next = { state with daemon := next.daemon } → Effect state next taken
  | dialed : state.daemon.point = .register → state.call = .idle →
      next = { state with call := .visiting [.core, .mem] } → Effect state next (.dial true)
  | sent (resource remaining) : state.call = .visiting remaining → resource ∈ remaining →
      next = { state with call := .sent resource (remaining.erase resource) } →
      Effect state next (.send resource)
  | handled (resource remaining) : state.call = .sent resource remaining →
      next = { state with
        call := .answered remaining
        endpoints := Function.update state.endpoints resource (some resource.socketName) } →
      Effect state next .handle
  | received (remaining) : state.call = .answered remaining →
      next = { state with call := .visiting remaining } → Effect state next .receive
  | failed (taken : Action) : taken.daemon = [.register false] →
      Daemon.step state.daemon (.register false) = some next.daemon →
      next = { state with daemon := next.daemon, call := .idle } → Effect state next taken
  | done : state.call = .visiting [] →
      Daemon.step state.daemon (.register true) = some next.daemon →
      next = { state with daemon := next.daemon, call := .idle } → Effect state next .done

/-- Every step has one of the effects. -/
theorem effect_of_step (hstep : step state action = some next) : Effect state next action := by
  cases action with
  | stop =>
      simp only [step] at hstep
      split at hstep <;> cases hstep
      exact .stop rfl
  | start =>
      simp only [step] at hstep
      split at hstep <;> cases hstep
      exact .start rfl
  | watch =>
      obtain ⟨hdaemon, hnext⟩ := daemon_step_eq_some.mp hstep
      exact .outside _ .watch rfl (by simp) (by simp) hdaemon hnext
  | restart =>
      obtain ⟨hdaemon, hnext⟩ := daemon_step_eq_some.mp hstep
      exact .outside _ .restart rfl (by simp) (by simp) hdaemon hnext
  | event =>
      obtain ⟨hdaemon, hnext⟩ := daemon_step_eq_some.mp hstep
      exact .outside _ .event rfl (by simp) (by simp) hdaemon hnext
  | run resource i =>
      obtain ⟨hdaemon, hnext⟩ := daemon_step_eq_some.mp hstep
      exact .outside _ (.run resource i) rfl (by simp) (by simp) hdaemon hnext
  | dial ok =>
      simp only [step] at hstep
      split at hstep
      · rename_i hpoint
        cases ok with
        | true =>
            simp only [if_true] at hstep
            split at hstep <;> cases hstep
            exact .dialed hpoint.1 hpoint.2 rfl
        | false =>
            obtain ⟨hdaemon, hnext⟩ := returns_eq_some.mp hstep
            exact .failed _ rfl hdaemon hnext
      · cases hstep
  | send resource =>
      simp only [step] at hstep
      split at hstep
      · rename_i remaining hcall
        split at hstep <;> cases hstep
        rename_i hmem
        exact .sent resource remaining hcall hmem rfl
      · cases hstep
  | handle =>
      simp only [step] at hstep
      split at hstep
      · rename_i resource remaining hcall
        split at hstep <;> cases hstep
        exact .handled resource remaining hcall rfl
      · cases hstep
  | receive =>
      simp only [step] at hstep
      split at hstep <;> cases hstep
      rename_i remaining hcall
      exact .received remaining hcall rfl
  | fail =>
      simp only [step] at hstep
      split at hstep
      · obtain ⟨hdaemon, hnext⟩ := returns_eq_some.mp hstep
        exact .failed _ rfl hdaemon hnext
      · obtain ⟨hdaemon, hnext⟩ := returns_eq_some.mp hstep
        exact .failed _ rfl hdaemon hnext
      · cases hstep
  | done =>
      simp only [step] at hstep
      split at hstep
      · rename_i hcall
        obtain ⟨hdaemon, hnext⟩ := returns_eq_some.mp hstep
        exact .done hcall hdaemon hnext
      · cases hstep

/-- Every step is what its action is for the daemon, or is none of the daemon's business. -/
theorem daemon_of_step (hstep : step state action = some next) :
    exec Daemon.step state.daemon action.daemon = some next.daemon := by
  cases effect_of_step hstep with
  | stop hnext | dialed _ _ hnext | sent _ _ _ _ hnext | handled _ _ _ hnext
    | received _ _ hnext => rw [hnext]; rfl
  | start hnext => rw [hnext]; rfl
  | outside _ daemonAction haction _ _ hdaemon _ => simp [haction, exec, hdaemon]
  | failed _ haction hdaemon _ => simp [haction, exec, hdaemon]
  | done _ hdaemon _ => simp [Action.daemon, exec, hdaemon]

/-- Every run is a run of the daemon that takes `registerToKubelet` as one step. -/
theorem daemon_of_exec {final : State} {actions : List Action}
    (hrun : exec step state actions = some final) :
    exec Daemon.step state.daemon (actions.flatMap Action.daemon) = some final.daemon := by
  have hmatch : ∀ (state : State) daemon action next, state.daemon = daemon →
      step state action = some next → ∃ following,
        exec Daemon.step daemon action.daemon = some following ∧ next.daemon = following := by
    intro state daemon action next hrelated hstep
    subst hrelated
    exact ⟨next.daemon, daemon_of_step hstep, rfl⟩
  obtain ⟨result, hresult, hfinal⟩ := exec_flat_map hmatch rfl hrun
  rw [hfinal]
  exact hresult

end Daemon

/-! ## What kubelet knows -/

/-- The servers that a call of `registerToKubelet` has still to register. -/
def Call.unregistered : Call → List Resource
  | .idle => []
  | .visiting remaining | .answered remaining => remaining
  | .sent resource remaining => resource :: remaining

/-- Kubelet knows the server at its endpoint. -/
def Knows (state : State) (resource : Resource) : Prop :=
  state.endpoints resource = some resource.socketName

/-- While main registers, or waits for events, and none waits to be read, a kubelet that is up knows
all servers but those that are still to be registered. A call is made only at its place. -/
structure Known (state : State) : Prop where
  calling : state.call ≠ .idle → state.daemon.point = .register
  knows : state.daemon.point = .select ∨ state.call ≠ .idle → state.daemon.events = 0 →
    state.up = true → ∀ resource, resource ∉ state.call.unregistered → Knows state resource

section Known

variable {state next : State} {action : Action}

/-- At first main registers nothing. -/
theorem known_initial (files : String → Option Nat) (inodes : Nat) (up : Bool)
    (endpoints : Resource → Option String) : Known (State.initial files inodes up endpoints) :=
  ⟨fun hcall => absurd rfl hcall, fun hwhere => by
    rcases hwhere with hpoint | hcall
    · cases hpoint
    · exact absurd rfl hcall⟩

/-- Main is at the same place in both states, with the same events and the same record of what
`registerToKubelet` has returned. -/
structure SameMain (before after : Daemon.State) : Prop where
  point : after.point = before.point
  events : after.events = before.events
  registered : after.registered = before.registered

/-- A statement of `Run` does not touch main. -/
theorem main_of_run {before after : Daemon.State} {resource : Resource} {i : Nat}
    (hstep : runStep before resource i = some after) : SameMain before after := by
  unfold runStep at hstep
  dsimp only at hstep
  split at hstep
  · cases hstep
  · cases hstep
    exact ⟨rfl, rfl, rfl⟩
  · cases hstep
    exact ⟨rfl, rfl, rfl⟩
  · split at hstep <;> cases hstep <;> exact ⟨rfl, rfl, rfl⟩
  · split at hstep
    · cases hstep
    · split at hstep <;> cases hstep <;> exact ⟨rfl, rfl, rfl⟩

/-- After `restartCore` main does not wait for events. -/
theorem restart_core_point (before : Daemon.State) : (restartCore before).point ≠ .select := by
  unfold restartCore
  split <;> simp

/-- A step of the daemon outside of the call leaves main where it is, or takes it from one place to
another where nothing is said of what kubelet knows. -/
theorem daemon_outside {before after : Daemon.State} {daemonAction : Daemon.Action}
    (hregister : ∀ ok, daemonAction ≠ .register ok) (hkubelet : daemonAction ≠ .kubelet)
    (hstep : Daemon.step before daemonAction = some after) :
    SameMain before after ∨ (before.point ≠ .register ∧ after.point ≠ .select) := by
  cases daemonAction with
  | kubelet => exact absurd rfl hkubelet
  | register ok => exact absurd rfl (hregister ok)
  | watch =>
      simp only [Daemon.step] at hstep
      split at hstep <;> cases hstep
      rename_i hpoint
      exact .inr ⟨by simp [hpoint], by simp⟩
  | restart =>
      simp only [Daemon.step] at hstep
      split at hstep
      · cases hstep
      · rename_i hpoint
        have hbefore : before.point ≠ .register := by simp [not_not.mp hpoint]
        split at hstep <;> cases hstep
        · exact .inr ⟨hbefore, restart_core_point before⟩
        · exact .inr ⟨hbefore, by simp⟩
  | event =>
      simp only [Daemon.step] at hstep
      split at hstep <;> cases hstep
      rename_i hread
      exact .inr ⟨by simp [hread.1], by simp⟩
  | run resource i =>
      simp only [Daemon.step] at hstep
      split at hstep
      · cases hstep
      · exact .inl (main_of_run hstep)

/-- A return with an error takes main back to the label. -/
theorem point_of_failed {before after : Daemon.State}
    (hstep : Daemon.step before (.register false) = some after) : after.point = .restart := by
  simp only [Daemon.step] at hstep
  split at hstep <;> cases hstep
  rfl

/-- A return without an error lets main wait for the same events, and is recorded. -/
theorem main_of_done {before after : Daemon.State}
    (hstep : Daemon.step before (.register true) = some after) :
    after.events = before.events ∧ after.registered = true := by
  simp only [Daemon.step] at hstep
  split at hstep <;> cases hstep
  exact ⟨rfl, rfl⟩

/-- Every step keeps what kubelet knows. -/
theorem known_step (h : Known state) (hstep : step state action = some next) : Known next := by
  obtain ⟨hcalling, hknows⟩ := h
  cases effect_of_step hstep with
  | stop hnext =>
      subst hnext
      exact ⟨hcalling, fun _ _ hup => by cases hup⟩
  | start hnext =>
      subst hnext
      refine ⟨hcalling, fun hwhere hevents => ?_⟩
      -- main has come past the start, so the event is queued
      have hpoint : state.daemon.point ≠ .start := by
        rcases hwhere with hselect | hcall
        · have hselect : state.daemon.point = .select := hselect
          simp [hselect]
        · simp [hcalling hcall]
      simp [kubeletRestart, hpoint] at hevents
  | outside _ daemonAction _ hregister hkubelet hdaemon hnext =>
      rw [hnext]
      rcases daemon_outside hregister hkubelet hdaemon with hsame | ⟨hbefore, hafter⟩
      · refine ⟨fun hcall => hsame.point.trans (hcalling hcall), fun hwhere hquiet => ?_⟩
        exact hknows (hwhere.imp_left hsame.point.symm.trans) (hsame.events.symm.trans hquiet)
      · have hidle : state.call = .idle := by
          by_contra hcall
          exact hbefore (hcalling hcall)
        refine ⟨fun hcall => absurd hidle hcall, fun hwhere => ?_⟩
        rcases hwhere with hselect | hcall
        · exact absurd hselect hafter
        · exact absurd hidle hcall
  | dialed hpoint hidle hnext =>
      subst hnext
      refine ⟨fun _ => hpoint, fun _ _ _ resource hresource => ?_⟩
      cases resource <;> simp [Call.unregistered] at hresource
  | sent resource remaining hcall hmem hnext =>
      subst hnext
      have hbusy : state.call ≠ .idle := by simp [hcall]
      refine ⟨fun _ => hcalling hbusy, fun _ hevents hup other hother => ?_⟩
      refine hknows (.inr hbusy) hevents hup other ?_
      rw [hcall]
      simp only [Call.unregistered, List.mem_cons, not_or] at hother ⊢
      exact fun hold => hother.2 ((List.mem_erase_of_ne hother.1).mpr hold)
  | handled resource remaining hcall hnext =>
      subst hnext
      have hbusy : state.call ≠ .idle := by simp [hcall]
      refine ⟨fun _ => hcalling hbusy, fun _ hevents hup other hother => ?_⟩
      show Function.update state.endpoints resource (some resource.socketName) other = _
      by_cases hsame : other = resource
      · rw [hsame, Function.update_self]
      · rw [Function.update_of_ne hsame]
        refine hknows (.inr hbusy) hevents hup other ?_
        rw [hcall]
        simp only [Call.unregistered, List.mem_cons, not_or]
        exact ⟨hsame, hother⟩
  | received remaining hcall hnext =>
      subst hnext
      have hbusy : state.call ≠ .idle := by simp [hcall]
      refine ⟨fun _ => hcalling hbusy, fun _ hevents hup other hother => ?_⟩
      refine hknows (.inr hbusy) hevents hup other ?_
      rw [hcall]
      exact hother
  | failed _ _ hdaemon hnext =>
      rw [hnext]
      refine ⟨fun hcall => absurd rfl hcall, fun hwhere => ?_⟩
      rcases hwhere with hselect | hcall
      · have hselect : next.daemon.point = .select := hselect
        rw [point_of_failed hdaemon] at hselect
        cases hselect
      · exact absurd rfl hcall
  | done hcall hdaemon hnext =>
      rw [hnext]
      have hbusy : state.call ≠ .idle := by simp [hcall]
      refine ⟨fun hother => absurd rfl hother, fun _ hevents hup resource _ => ?_⟩
      refine hknows (.inr hbusy) ((main_of_done hdaemon).1.symm.trans hevents) hup resource ?_
      simp [hcall, Call.unregistered]

end Known

/-- Where kubelet knows every server when main is quiet. -/
theorem Known.quiet {state : State} (h : Known state) (hselect : state.daemon.point = .select)
    (hevents : state.daemon.events = 0) (hup : state.up = true) (resource : Resource) :
    Knows state resource := by
  have hidle : state.call = .idle := by
    by_contra hcall
    have hpoint := h.calling hcall
    rw [hselect] at hpoint
    cases hpoint
  refine h.knows (.inl hselect) hevents hup resource ?_
  simp [hidle, Call.unregistered]

/-- In every interleaving of kubelet, main and the goroutines of `Run`: whenever main waits for
events and none waits to be read, a kubelet that is up knows every server at its endpoint. -/
theorem registered_when_quiet (files : String → Option Nat) (inodes : Nat) (up : Bool)
    (endpoints : Resource → Option String) (actions : List Action) (state : State)
    (hrun : exec step (State.initial files inodes up endpoints) actions = some state)
    (hselect : state.daemon.point = .select) (hevents : state.daemon.events = 0)
    (hup : state.up = true) (resource : Resource) :
    state.endpoints resource = some resource.socketName := by
  have hknown : Known state :=
    exec_invariant (fun _ _ _ h hstep => known_step h hstep)
      (known_initial files inodes up endpoints) hrun
  exact hknown.quiet hselect hevents hup resource

/-- One registration of both servers, the memory server first. -/
def registerAll : List Action :=
  [.dial true, .send .mem, .handle, .receive, .send .core, .handle, .receive, .done]

/-- Kubelet restarts while `registerToKubelet` waits for its first answer; the second server is
registered with the new kubelet only, and then both are registered again. -/
def interrupted : List Action :=
  [.watch, .restart, .run .core 0, .dial true, .send .mem, .handle, .stop, .start, .receive,
    .send .core, .handle, .receive, .done, .event, .restart] ++ registerAll

/-- Then the new kubelet knows both. -/
theorem registered_when_quiet_interrupted : ∃ state,
    exec step (State.initial (fun _ => none) 0 true fun _ => none) interrupted = some state ∧
      state.endpoints .mem = some "nvidiamem.sock" :=
  ⟨_, rfl, registered_when_quiet (fun _ => none) 0 true (fun _ => none) interrupted _ rfl rfl rfl
    rfl .mem⟩

/-! ## What kubelet can reach -/

/-- The step is undisturbed for the daemon that takes `registerToKubelet` as one step. -/
def UndisturbedStep (state : State) (action : Action) : Prop :=
  ∀ daemonAction ∈ action.daemon, Undisturbed state.daemon daemonAction

instance (state : State) (action : Action) : Decidable (UndisturbedStep state action) :=
  inferInstanceAs (Decidable (∀ _ ∈ _, _))

/-- In a run without disturbances kubelet knows the servers, they stay reachable, and main waits
without an event only after it has registered them. -/
structure Discoverable (state : State) : Prop where
  known : Known state
  reachable : Invariant state.daemon
  registered : state.daemon.point = .select → state.daemon.events = 0 →
    state.daemon.registered = true

section Discoverable

variable {state next : State} {action : Action}

/-- Main waits without an event only after it has registered. -/
theorem registered_step (h : Discoverable state) (hstep : step state action = some next)
    (hselect : next.daemon.point = .select) (hevents : next.daemon.events = 0) :
    next.daemon.registered = true := by
  cases effect_of_step hstep with
  | stop hnext | dialed _ _ hnext | sent _ _ _ _ hnext | handled _ _ _ hnext
    | received _ _ hnext =>
      subst hnext
      exact h.registered hselect hevents
  | start hnext =>
      subst hnext
      have hpoint : state.daemon.point = .select := hselect
      simp [kubeletRestart, hpoint] at hevents
  | outside _ daemonAction _ hregister hkubelet hdaemon _ =>
      rcases daemon_outside hregister hkubelet hdaemon with hsame | ⟨_, hafter⟩
      · rw [hsame.registered]
        exact h.registered (hsame.point.symm.trans hselect) (hsame.events.symm.trans hevents)
      · exact absurd hselect hafter
  | failed _ _ hdaemon _ =>
      rw [point_of_failed hdaemon] at hselect
      cases hselect
  | done _ hdaemon _ => exact (main_of_done hdaemon).2

/-- A step without a disturbance keeps the servers discoverable. -/
theorem discoverable_step (h : Discoverable state) (hundisturbed : UndisturbedStep state action)
    (hstep : step state action = some next) : Discoverable next := by
  refine ⟨known_step h.known hstep, ?_, registered_step h hstep⟩
  have hdaemon := daemon_of_step hstep
  have hall : Along Daemon.step Undisturbed state.daemon action.daemon := by
    cases action with
    | stop | send | handle | receive => trivial
    | dial ok =>
        cases ok with
        | true => trivial
        | false => exact fun _ _ => ⟨hundisturbed _ (by simp [Action.daemon]), trivial⟩
    | _ => exact fun _ _ => ⟨hundisturbed _ (by simp [Action.daemon]), trivial⟩
  exact exec_invariant_along invariant_step h.reachable hall hdaemon

end Discoverable

/-- In every run without disturbances: whenever main waits for events and none waits to be read,
each resource is known to a kubelet that is up, at an endpoint whose file is that of a listener of a
gRPC server that runs. -/
theorem discoverable_when_quiet (files : String → Option Nat) (inodes : Nat) (up : Bool)
    (endpoints : Resource → Option String) (actions : List Action)
    (hundisturbed : Along step UndisturbedStep (State.initial files inodes up endpoints) actions)
    (state : State)
    (hrun : exec step (State.initial files inodes up endpoints) actions = some state)
    (hselect : state.daemon.point = .select) (hevents : state.daemon.events = 0)
    (hup : state.up = true) (resource : Resource) :
    ∃ endpoint srv inode, state.endpoints resource = some endpoint ∧
      state.daemon.files endpoint = some inode ∧
      (srv, inode) ∈ (state.daemon.servers resource).serving ∧
      srv ∉ (state.daemon.servers resource).stopped := by
  have hinitial : Discoverable (State.initial files inodes up endpoints) :=
    ⟨known_initial files inodes up endpoints, invariant_initial files inodes, nofun⟩
  have hinv : Discoverable state :=
    exec_invariant_along (fun _ _ _ h hcond hstep => discoverable_step h hcond hstep) hinitial
      hundisturbed hrun
  obtain ⟨srv, inode, hfile, hserving, hstopped⟩ :=
    hinv.reachable.stays_reachable (hinv.registered hselect hevents) resource
  exact ⟨resource.socketName, srv, inode, hinv.known.quiet hselect hevents hup resource, hfile,
    hserving, hstopped⟩

/-- The statements of the goroutine of `Run` that has been started for a server. -/
def serve (resource : Resource) : List Action := List.replicate 4 (.run resource 0)

/-- Kubelet restarts before the servers have bound their sockets, and the first dial fails. -/
def startup : List Action :=
  [.stop, .start] ++ serve .core ++ serve .mem ++ [.watch, .restart, .dial false, .restart] ++
    registerAll

/-- Then kubelet knows the memory server and can reach it. -/
theorem discoverable_when_quiet_startup : ∃ state,
    exec step (State.initial (fun _ => none) 0 true fun _ => none) startup = some state ∧
      ∃ endpoint srv inode, state.endpoints .mem = some endpoint ∧
        state.daemon.files endpoint = some inode ∧
        (srv, inode) ∈ (state.daemon.servers .mem).serving ∧
        srv ∉ (state.daemon.servers .mem).stopped := by
  have hundisturbed : Along step UndisturbedStep
      (State.initial (fun _ => none) 0 true fun _ => none) startup := by decide
  exact ⟨_, rfl, discoverable_when_quiet (fun _ => none) 0 true (fun _ => none) startup hundisturbed
    _ rfl rfl rfl rfl .mem⟩

end UniShare.Registration
