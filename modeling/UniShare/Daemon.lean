import UniShare.Lib.Execution

/-!
# The daemon and kubelet

After `main.go`, with `Run` and `Stop` of the servers of `pluginRegister/vcore.go` and
`pluginRegister/vmemory.go`. The machine lets kubelet restart at any time, and interleaves the main
goroutine with the goroutines of `Run`. Only the core server is run again after a restart;
`stays_reachable_along` says in which runs both servers stay reachable nevertheless.
-/

namespace UniShare.Daemon

open Lib

/-! ## The servers -/

/-- The servers in `resourceSrv`. -/
inductive Resource where
  | core
  | mem
  deriving DecidableEq, Repr

instance : Fintype Resource := ⟨{.core, .mem}, fun resource => by cases resource <;> decide⟩

/-- The name of a server's socket file, `NvidiaCoreSocketName` and `NvidiaMemSocketName`. -/
def Resource.socketName : Resource → String
  | core => "nvidiacore.sock"
  | mem => "nvidiamem.sock"

/-- Where a goroutine of `Run` is: ahead of `grpc.NewServer`, of `syscall.Unlink`, of `net.Listen`,
and of `Serve`, with a listener on this file. -/
inductive RunPoint where
  | start
  | made
  | unlinked
  | bound (inode : Nat)
  deriving DecidableEq, Repr

/-- A resource server: its field `srv`, how many gRPC servers it has made and which of them are
stopped, the listeners that they serve, and the goroutines of `Run` on their way to that. -/
structure Server where
  srv : Option Nat
  made : Nat
  stopped : List Nat
  serving : List (Nat × Nat)
  runs : List RunPoint
  deriving DecidableEq, Repr

/-- The server has a listener. -/
def Server.isBound (server : Server) : Bool :=
  !server.serving.isEmpty || server.runs.any fun point =>
    match point with
    | .bound _ => true
    | _ => false

/-! ## The machine -/

/-- Where the main goroutine is: ahead of `NewFileWatcher`, at the label `restart`, ahead of
`registerToKubelet`, in the loop over the events, or ended by a panic. -/
inductive MainPoint where
  | start
  | restart
  | register
  | select
  | crashed
  deriving DecidableEq, Repr

/-- The daemon and the directory of the sockets: the files with their inodes, and the events of the
watcher for `kubelet.sock` that are not read yet. Two fields record the past: `registered`, that
`registerToKubelet` has returned without an error after the latest restart of kubelet, and
`forgotten`, that kubelet has been restarted after the server had bound its socket without the
server being run again for that. -/
structure State where
  serverFlag : Bool
  point : MainPoint
  events : Nat
  files : String → Option Nat
  inodes : Nat
  servers : Resource → Server
  registered : Bool
  forgotten : Resource → Bool

/-- `main` has just started both servers, whatever files there are. -/
def State.initial (files : String → Option Nat) (inodes : Nat) : State where
  serverFlag := false
  point := .start
  events := 0
  files := files
  inodes := inodes
  servers _ := ⟨none, 0, [], [], [.start]⟩
  registered := false
  forgotten _ := false

/-- The state with another server. -/
def State.setServer (state : State) (resource : Resource) (server : Server) : State :=
  { state with servers := Function.update state.servers resource server }

/-- The state with another file at a name. -/
def State.setFile (state : State) (name : String) (file : Option Nat) : State :=
  { state with files := Function.update state.files name file }

/-- Kubelet is restarted: it removes every socket file and creates its own. -/
def kubeletRestart (state : State) : State :=
  { state with
    files := Function.update (fun _ => none) "kubelet.sock" (some state.inodes)
    inodes := state.inodes + 1
    events := if state.point = .start then 0 else state.events + 1
    registered := false
    forgotten := fun resource =>
      state.forgotten resource || (state.servers resource).isBound &&
        (resource == .mem || state.point == .start) }

/-- One statement of a goroutine of `Run`; closing a listener unlinks its path. -/
def runStep (state : State) (resource : Resource) (i : Nat) : Option State :=
  let server := state.servers resource
  match server.runs[i]? with
  | none => none
  | some .start =>
      some (state.setServer resource
        { server with
          srv := some server.made, made := server.made + 1, runs := server.runs.set i .made })
  | some .made =>
      some ((state.setServer resource { server with runs := server.runs.set i .unlinked }).setFile
        resource.socketName none)
  | some .unlinked =>
      match state.files resource.socketName with
      -- `net.Listen` fails, and nobody looks at the error of `Run`
      | some _ => some (state.setServer resource { server with runs := server.runs.eraseIdx i })
      | none =>
          some ({ state.setServer resource
              { server with runs := server.runs.set i (.bound state.inodes) } with
            inodes := state.inodes + 1 }.setFile resource.socketName (some state.inodes))
  | some (.bound inode) =>
      match server.srv with
      | none => none
      | some srv =>
          if srv ∈ server.stopped then
            some ((state.setServer resource { server with runs := server.runs.eraseIdx i }).setFile
              resource.socketName none)
          else
            some (state.setServer resource
              { server with
                serving := server.serving ++ [(srv, inode)], runs := server.runs.eraseIdx i })

/-- `Stop` of a server with this gRPC server, which closes its listeners. -/
def stop (state : State) (resource : Resource) (srv : Nat) : State :=
  let server := state.servers resource
  let closed := server.serving.any fun listener => listener.1 == srv
  (state.setServer resource
    { server with
      stopped := srv :: server.stopped
      serving := server.serving.filter fun listener => listener.1 != srv }).setFile
    resource.socketName (if closed then none else state.files resource.socketName)

/-- `vcoreServer.Stop`, the removal of `core.sock`, and `go vcoreServer.Run`. -/
def restartCore (state : State) : State :=
  match (state.servers .core).srv with
  -- `Stop` on a server that has not been made
  | none => { state with point := .crashed }
  | some srv =>
      let state := (stop state .core srv).setFile "core.sock" none
      let server := state.servers .core
      { state.setServer .core { server with runs := server.runs ++ [.start] } with
        point := .register
        forgotten := Function.update state.forgotten .core false }

/-- Kubelet restarts, main goes on by a statement, or a goroutine of `Run` does. -/
inductive Action where
  | kubelet
  | watch
  | restart
  | register (ok : Bool)
  | event
  | run (resource : Resource) (i : Nat)
  deriving DecidableEq, Repr

/-- One transition, `none` when the action is not possible. -/
def step (state : State) : Action → Option State
  | .kubelet => some (kubeletRestart state)
  | .watch => if state.point = .start then some { state with point := .restart } else none
  | .restart =>
      if state.point ≠ .restart then none
      else if state.serverFlag then some (restartCore state)
      else some { state with point := .register }
  | .register ok =>
      if state.point ≠ .register then none
      else if ok then some { state with point := .select, registered := true }
      else some { state with point := .restart, serverFlag := false }
  | .event =>
      if state.point = .select ∧ 0 < state.events then
        some { state with events := state.events - 1, serverFlag := true, point := .restart }
      else none
  | .run resource i => if state.point = .crashed then none else runStep state resource i

/-! ## Reachable servers -/

/-- The file at the server's endpoint is that of a listener of a gRPC server that runs. -/
def Reachable (state : State) (resource : Resource) : Prop :=
  ∃ srv inode, state.files resource.socketName = some inode ∧
    (srv, inode) ∈ (state.servers resource).serving ∧ srv ∉ (state.servers resource).stopped

/-- Once registered after the latest restart of kubelet, all servers are reachable. -/
def StaysReachable (state : State) : Prop :=
  state.registered = true → ∀ resource, Reachable state resource

/-- The steps that go well. `registerToKubelet` succeeds only when no event waits to be read, no
`Run` is on its way, and no server is forgotten; and the core server is stopped only when its `Run`
has come to serve. -/
def Undisturbed (state : State) : Action → Prop
  | .register true =>
      state.events = 0 ∧ ∀ resource, (state.servers resource).runs = [] ∧
        state.forgotten resource = false
  | .restart => state.serverFlag = true → (state.servers .core).runs = []
  | _ => True

/-! ## The invariant -/

/-- How far a server has come, with the file at its endpoint. `due` says that the file may be gone,
because main has still to run the server again, or has forgotten to. -/
inductive Progress (server : Server) (file : Option Nat) (due : Prop) : Prop where
  | start : server.runs = [.start] → Progress server file due
  | made (srv) : server.runs = [.made] → server.srv = some srv → srv ∉ server.stopped →
      Progress server file due
  | unlinked (srv) : server.runs = [.unlinked] → server.srv = some srv → srv ∉ server.stopped →
      file = none → Progress server file due
  | bound (srv inode) : server.runs = [.bound inode] → server.srv = some srv →
      srv ∉ server.stopped → (file = some inode ∨ due) → Progress server file due
  | serving (srv inode) : server.runs = [] → server.srv = some srv → srv ∉ server.stopped →
      (srv, inode) ∈ server.serving → (file = some inode ∨ due) → Progress server file due

/-- Why the file of a server may be gone. -/
def Due (state : State) : Resource → Prop
  | .core => 0 < state.events ∨ (state.point = .restart ∧ state.serverFlag = true) ∨
      state.forgotten .core = true
  | .mem => state.forgotten .mem = true

/-- gRPC servers are made with new numbers. -/
structure Numbered (server : Server) : Prop where
  srv : ∀ srv, server.srv = some srv → srv < server.made
  stopped : ∀ srv ∈ server.stopped, srv < server.made

/-- What holds in all states of a run without disturbances. -/
structure Invariant (state : State) : Prop where
  progress : ∀ resource,
    Progress (state.servers resource) (state.files resource.socketName) (Due state resource)
  numbered : ∀ resource, Numbered (state.servers resource)
  quiet : state.registered = true → state.point = .select ∧ state.events = 0 ∧
    ∀ resource, (state.servers resource).runs = [] ∧ state.forgotten resource = false

section Invariant

variable {state next : State} {server : Server} {file : Option Nat} {due due' : Prop}

/-- A server is as far when its file may be gone for more reasons. -/
theorem Progress.imp (h : Progress server file due) (hdue : due → due') :
    Progress server file due' := by
  cases h with
  | start hruns => exact .start hruns
  | made srv hruns hsrv hup => exact .made srv hruns hsrv hup
  | unlinked srv hruns hsrv hup hfile => exact .unlinked srv hruns hsrv hup hfile
  | bound srv inode hruns hsrv hup hfile =>
      exact .bound srv inode hruns hsrv hup (hfile.imp_right hdue)
  | serving srv inode hruns hsrv hup hserving hfile =>
      exact .serving srv inode hruns hsrv hup hserving (hfile.imp_right hdue)

/-- A server whose file is removed is as far when that is a reason for the file to be gone. -/
theorem Progress.removed (h : Progress server file due) (hdue : server.isBound = true → due') :
    Progress server none due' := by
  cases h with
  | start hruns => exact .start hruns
  | made srv hruns hsrv hup => exact .made srv hruns hsrv hup
  | unlinked srv hruns hsrv hup hfile => exact .unlinked srv hruns hsrv hup rfl
  | bound srv inode hruns hsrv hup hfile =>
      exact .bound srv inode hruns hsrv hup (.inr (hdue (by simp [Server.isBound, hruns])))
  | serving srv inode hruns hsrv hup hserving hfile =>
      have hbound : server.isBound = true := by
        have hne : server.serving ≠ [] := List.ne_nil_of_mem hserving
        simp [Server.isBound, hne]
      exact .serving srv inode hruns hsrv hup hserving (.inr (hdue hbound))

/-- Once registered, the servers are reachable. -/
theorem Invariant.stays_reachable (h : Invariant state) : StaysReachable state := by
  intro hregistered resource
  obtain ⟨hpoint, hevents, hall⟩ := h.quiet hregistered
  obtain ⟨hruns, hforgotten⟩ := hall resource
  have hnone : ¬ Due state resource := by
    cases resource with
    | core => simp [Due, hpoint, hevents, hforgotten]
    | mem => simp [Due, hforgotten]
  cases h.progress resource with
  | serving srv inode _ _ hup hserving hfile =>
      exact ⟨srv, inode, hfile.resolve_right hnone, hserving, hup⟩
  | start hother => simp [hruns] at hother
  | made _ hother => simp [hruns] at hother
  | unlinked _ hother => simp [hruns] at hother
  | bound _ _ hother => simp [hruns] at hother

/-- At first the invariant holds. -/
theorem invariant_initial (files : String → Option Nat) (inodes : Nat) :
    Invariant (State.initial files inodes) :=
  ⟨fun _ => .start rfl, fun _ => ⟨nofun, nofun⟩, nofun⟩

/-! ## What the steps keep -/

/-- The files of the servers have other names than that of kubelet and the one that main removes,
and than each other. -/
theorem socket_name_ne (resource : Resource) :
    resource.socketName ≠ "kubelet.sock" ∧ resource.socketName ≠ "core.sock" := by
  cases resource <;> decide

theorem socket_name_inj {resource other : Resource} (hne : other ≠ resource) :
    other.socketName ≠ resource.socketName := by
  cases resource <;> cases other <;> first | exact absurd rfl hne | decide

/-- A restart of kubelet keeps the invariant. -/
theorem invariant_kubelet (h : Invariant state) : Invariant (kubeletRestart state) := by
  refine ⟨fun resource => ?_, h.numbered, nofun⟩
  have hfile : (kubeletRestart state).files resource.socketName = none := by
    show Function.update (fun _ => none) "kubelet.sock" (some state.inodes) resource.socketName =
      none
    rw [Function.update_of_ne (socket_name_ne resource).1]
  rw [hfile]
  refine (h.progress resource).removed fun hbound => ?_
  cases resource with
  | mem => simp [Due, kubeletRestart, hbound]
  | core =>
      by_cases hpoint : state.point = .start
      · exact .inr (.inr (by simp [kubeletRestart, hbound, hpoint]))
      · exact .inl (by simp [kubeletRestart, hpoint])

/-- A server and its file may change when the server has not come less far. -/
theorem Invariant.moved (h : Invariant state) (hquiet : state.registered ≠ true)
    {resource : Resource} (inodes : Nat) (hprogress : Progress server file (Due state resource))
    (hnumbered : Numbered server) :
    Invariant { (state.setServer resource server).setFile resource.socketName file with
      inodes := inodes } := by
  refine ⟨fun other => ?_, fun other => ?_, fun hregistered => absurd hregistered hquiet⟩
  · show Progress (Function.update state.servers resource server other)
      (Function.update state.files resource.socketName file other.socketName) (Due state other)
    by_cases hsame : other = resource
    · subst hsame
      rwa [Function.update_self, Function.update_self]
    · rw [Function.update_of_ne hsame, Function.update_of_ne (socket_name_inj hsame)]
      exact h.progress other
  · show Numbered (Function.update state.servers resource server other)
    by_cases hsame : other = resource
    · subst hsame
      rwa [Function.update_self]
    · rw [Function.update_of_ne hsame]
      exact h.numbered other

/-- A server may change alone when it has not come less far. -/
theorem Invariant.served (h : Invariant state) (hquiet : state.registered ≠ true)
    {resource : Resource}
    (hprogress : Progress server (state.files resource.socketName) (Due state resource))
    (hnumbered : Numbered server) : Invariant (state.setServer resource server) := by
  have hmoved := h.moved hquiet state.inodes hprogress hnumbered
  have hsame : { (state.setServer resource server).setFile resource.socketName
      (state.files resource.socketName) with inodes := state.inodes } =
        state.setServer resource server := by
    simp [State.setServer, State.setFile, Function.update_eq_self]
  rwa [hsame] at hmoved

/-- A statement of `Run` keeps the invariant. -/
theorem invariant_run {resource : Resource} {i : Nat} (h : Invariant state)
    (hstep : runStep state resource i = some next) : Invariant next := by
  obtain ⟨hsrv, hstopped⟩ := h.numbered resource
  -- there is a goroutine, so the servers are not registered
  have hquiet : state.registered ≠ true := by
    intro hregistered
    have hruns := ((h.quiet hregistered).2.2 resource).1
    rw [runStep, hruns] at hstep
    cases hstep
  -- the only goroutine has number 0
  have hfirst : ∀ {point : RunPoint}, (state.servers resource).runs = [point] → i = 0 := by
    intro point hruns
    cases i with
    | zero => rfl
    | succ i =>
        rw [runStep, hruns] at hstep
        cases hstep
  cases h.progress resource with
  | start hruns =>
      obtain rfl := hfirst hruns
      simp only [runStep, hruns, List.getElem?_cons_zero, Option.some.injEq] at hstep
      subst hstep
      refine h.served hquiet (.made _ rfl rfl ?_) ⟨?_, fun srv hmem => ?_⟩
      · exact fun hmem => absurd (hstopped _ hmem) (lt_irrefl _)
      · intro srv heq
        obtain rfl := Option.some.inj heq
        exact Nat.lt_succ_self _
      · exact (hstopped srv hmem).trans (Nat.lt_succ_self _)
  | made srv hruns hsrvEq hup =>
      obtain rfl := hfirst hruns
      simp only [runStep, hruns, List.getElem?_cons_zero, Option.some.injEq] at hstep
      subst hstep
      exact h.moved hquiet state.inodes (.unlinked srv rfl hsrvEq hup rfl) ⟨hsrv, hstopped⟩
  | unlinked srv hruns hsrvEq hup hfile =>
      obtain rfl := hfirst hruns
      simp only [runStep, hruns, List.getElem?_cons_zero, hfile, Option.some.injEq] at hstep
      subst hstep
      exact h.moved hquiet (state.inodes + 1)
        (.bound srv state.inodes rfl hsrvEq hup (.inl rfl)) ⟨hsrv, hstopped⟩
  | bound srv inode hruns hsrvEq hup hfile =>
      obtain rfl := hfirst hruns
      simp only [runStep, hruns, List.getElem?_cons_zero, hsrvEq, hup, if_false,
        Option.some.injEq] at hstep
      subst hstep
      refine h.served hquiet (.serving srv inode rfl rfl hup ?_ hfile) ⟨?_, hstopped⟩
      · exact List.mem_append_right _ List.mem_cons_self
      · exact fun other heq => hsrv other (hsrvEq.trans heq)
  | serving srv inode hruns hsrvEq hup hserving hfile =>
      rw [runStep, hruns] at hstep
      cases hstep

/-- Stopping the core server when it serves, and running it again, keeps the invariant. -/
theorem invariant_restart_core (h : Invariant state) (hpoint : state.point = .restart)
    (hruns : (state.servers .core).runs = []) : Invariant (restartCore state) := by
  have hquiet : state.registered ≠ true := by
    intro hregistered
    rw [(h.quiet hregistered).1] at hpoint
    cases hpoint
  obtain ⟨srv, hsrv⟩ : ∃ srv, (state.servers .core).srv = some srv := by
    cases h.progress .core with
    | serving srv inode _ hsrv => exact ⟨srv, hsrv⟩
    | start hother => simp [hruns] at hother
    | made _ hother => simp [hruns] at hother
    | unlinked _ hother => simp [hruns] at hother
    | bound _ _ hother => simp [hruns] at hother
  obtain ⟨hsrvLt, hstoppedLt⟩ := h.numbered .core
  unfold restartCore
  rw [hsrv]
  dsimp only
  refine ⟨fun resource => ?_, fun resource => ?_, fun hregistered => absurd hregistered hquiet⟩
  · cases resource with
    | core => exact .start (by simp [State.setServer, State.setFile, stop, hruns])
    | mem => exact h.progress .mem
  · cases resource with
    | core =>
        refine ⟨fun other heq => hsrvLt other heq, fun other hmem => ?_⟩
        rcases List.mem_cons.mp hmem with rfl | hearlier
        · exact hsrvLt other hsrv
        · exact hstoppedLt other hearlier
    | mem => exact h.numbered .mem

/-- Away from the label, or without the flag, the file of the core server is only gone when an event
waits or the server is forgotten. -/
theorem due_elsewhere (h : Due state .core)
    (hlabel : ¬ (state.point = .restart ∧ state.serverFlag = true)) :
    0 < state.events ∨ state.forgotten .core = true :=
  h.imp_right fun hrest => hrest.resolve_left hlabel

/-- When main goes on elsewhere, the invariant holds on. -/
theorem Invariant.main (h : Invariant state) (hquiet : state.registered ≠ true)
    (hlabel : ¬ (state.point = .restart ∧ state.serverFlag = true)) (serverFlag : Bool)
    (point : MainPoint) : Invariant { state with serverFlag := serverFlag, point := point } := by
  refine ⟨fun resource => ?_, h.numbered, fun hregistered => absurd hregistered hquiet⟩
  cases resource with
  | core => exact (h.progress .core).imp fun hdue => (due_elsewhere hdue hlabel).imp_right .inr
  | mem => exact h.progress .mem

/-- When main reads an event, it has still to run the core server again. -/
theorem Invariant.event (h : Invariant state) (hevents : 0 < state.events) :
    Invariant { state with events := state.events - 1, serverFlag := true, point := .restart } := by
  refine ⟨fun resource => ?_, h.numbered, fun hregistered => ?_⟩
  · cases resource with
    | core => exact (h.progress .core).imp fun _ => .inr (.inl ⟨rfl, rfl⟩)
    | mem => exact h.progress .mem
  · have hnone := (h.quiet hregistered).2.1
    omega

/-- Main is not registered outside of its loop over the events. -/
theorem Invariant.not_registered (h : Invariant state) (hpoint : state.point ≠ .select) :
    state.registered ≠ true :=
  fun hregistered => hpoint (h.quiet hregistered).1

/-- A step without a disturbance keeps the invariant. -/
theorem invariant_step (state : State) (action : Action) (next : State) (h : Invariant state)
    (hundisturbed : Undisturbed state action) (hstep : step state action = some next) :
    Invariant next := by
  cases action with
  | kubelet =>
      obtain rfl := Option.some.inj hstep
      exact invariant_kubelet h
  | watch =>
      simp only [step] at hstep
      split at hstep
      · rename_i hpoint
        obtain rfl := Option.some.inj hstep
        exact h.main (h.not_registered (by simp [hpoint])) (by simp [hpoint]) _ _
      · cases hstep
  | restart =>
      simp only [step] at hstep
      split at hstep
      · cases hstep
      · rename_i hlabel
        have hpoint : state.point = .restart := not_not.mp hlabel
        split at hstep
        · rename_i hflag
          obtain rfl := Option.some.inj hstep
          exact invariant_restart_core h hpoint (hundisturbed hflag)
        · rename_i hflag
          obtain rfl := Option.some.inj hstep
          exact h.main (h.not_registered (by simp [hpoint])) (by simp [hflag]) _ _
  | register ok =>
      simp only [step] at hstep
      split at hstep
      · cases hstep
      · rename_i hlabel
        have hpoint : state.point = .register := not_not.mp hlabel
        have hquiet := h.not_registered (show state.point ≠ .select by simp [hpoint])
        have helsewhere : ¬ (state.point = .restart ∧ state.serverFlag = true) := by simp [hpoint]
        cases ok with
        | false =>
            obtain rfl := Option.some.inj hstep
            exact h.main hquiet helsewhere false .restart
        | true =>
            obtain rfl := Option.some.inj hstep
            obtain ⟨hevents, hall⟩ := hundisturbed
            have hmain := h.main hquiet helsewhere state.serverFlag .select
            exact ⟨hmain.progress, hmain.numbered, fun _ => ⟨rfl, hevents, hall⟩⟩
  | event =>
      simp only [step] at hstep
      split at hstep
      · rename_i hread
        obtain rfl := Option.some.inj hstep
        exact h.event hread.2
      · cases hstep
  | run resource i =>
      simp only [step] at hstep
      split at hstep
      · cases hstep
      · exact invariant_run h hstep

end Invariant

/-! ## The result -/

/-- In every run whose steps all go well, the servers stay reachable. -/
theorem stays_reachable_along (files : String → Option Nat) (inodes : Nat) {actions : List Action}
    (h : Along step Undisturbed (State.initial files inodes) actions) :
    Always step StaysReachable (State.initial files inodes) actions :=
  always_of_along invariant_step (fun _ hinv => hinv.stays_reachable)
    (invariant_initial files inodes) h

instance (state : State) : ∀ action, Decidable (Undisturbed state action)
  | .register true => inferInstanceAs (Decidable (_ ∧ ∀ _, _ ∧ _))
  | .restart => inferInstanceAs (Decidable (_ → _))
  | .register false | .kubelet | .watch | .event | .run _ _ => .isTrue trivial

/-- All statements of the goroutine of `Run` that has been started for a server. -/
def runAll (resource : Resource) : List Action := List.replicate 4 (.run resource 0)

/-- Kubelet is restarted when no server has bound its socket; the registration fails once and then
succeeds. -/
def earlyRestart : List Action :=
  .kubelet :: runAll .core ++ runAll .mem ++
    [.watch, .restart, .register false, .restart, .register true]

/-- Then the servers stay reachable. -/
theorem stays_reachable_early :
    Always step StaysReachable (State.initial (fun _ => none) 0) earlyRestart :=
  stays_reachable_along (fun _ => none) 0 (by decide)

/-- The servers come up and are registered, and then kubelet is restarted; the core server is run
again and the registration repeated. -/
def lateRestart : List Action :=
  .watch :: runAll .core ++ runAll .mem ++ [.restart, .register true, .kubelet, .event, .restart] ++
    runAll .core ++ [.register true]

/-- Then the memory server is not reachable. -/
theorem stays_reachable_late : ∃ final,
    exec step (State.initial (fun _ => none) 0) lateRestart = some final ∧
      ¬ StaysReachable final := by
  refine ⟨_, rfl, fun h => ?_⟩
  obtain ⟨srv, inode, hfile, -⟩ := h rfl .mem
  cases hfile

end UniShare.Daemon
