import UniShare.Isolation

/-!
# The limit that a container runs under

The limit of a pod goes a long way: `creatVcudaServer` adds the limits of the pod's containers up in
one phase, writes the total to a file in another, a process of a container reads the file that it
finds through its cgroup and its mount, and a control thread takes the limit from the process's
`config_data` when it is first scheduled. `limit_enforced` says on which runs what arrives is what
was asked for: the manager reads a pod's totals when they stand for its limits, and control threads
start after the configuration has been read.
-/

namespace UniShare.Handshake

open Lib Kube PodWatch PluginRegister Container Interceptor Lifecycle ResourceManager

/-! ## One process -/

/-- What a process has read, and what its control threads use, is this limit. -/
structure Limited (limit : Int) (process : Startup.State) : Prop where
  config : 0 < process.reads → process.configData.utilization.toInt = limit
  controls : ∀ accelerator yamlLimit share,
    Startup.Control.running accelerator yamlLimit share ∈ process.controls →
      yamlLimit.toInt = limit

/-- A control thread starts after the configuration has been read. -/
def AfterRead (process : Startup.State) : Startup.Action → Prop
  | .start _ => 0 < process.reads
  | _ => True

instance (process : Startup.State) : ∀ action, Decidable (AfterRead process action)
  | .start _ => inferInstanceAs (Decidable (_ < _))
  | .call _ | .advance _ _ | .tick _ _ => .isTrue trivial

/-- A process that reads no other limit keeps to it. -/
theorem limited_step {card : Controller.Accelerator → Startup.Card} {file : Option RcData}
    {limit : Int} {process next : Startup.State} {action : Startup.Action}
    (h : Limited limit process)
    (hfile : ∀ data, file = some data → data.utilization.toInt = limit)
    (hafter : AfterRead process action)
    (hstep : Startup.step card file process action = some next) : Limited limit next := by
  obtain ⟨-, heffect⟩ := Startup.effect_of_step hstep
  cases heffect with
  | called entry heq =>
      subst heq
      exact ⟨h.config, h.controls⟩
  | started i accelerator _ heq =>
      subst heq
      refine ⟨h.config, fun other yamlLimit share hmem => ?_⟩
      rcases List.mem_or_eq_of_mem_set hmem with hold | hnew
      · exact h.controls other yamlLimit share hold
      · obtain ⟨-, rfl, -⟩ := Startup.Control.running.inj hnew
        exact h.config hafter
  | ticked i uti accelerator yamlLimit share hcontrol heq =>
      obtain ⟨hconfig, hreads, -⟩ :=
        Startup.tick_frame card accelerator yamlLimit share uti i process
      rw [← heq] at hconfig hreads
      refine ⟨?_, fun other otherLimit otherShare hmem => ?_⟩
      · rw [hconfig, hreads]
        exact h.config
      · rcases Startup.tick_controls card accelerator yamlLimit share uti i process with
          hsame | ⟨value, hset⟩
        · rw [heq, hsame] at hmem
          exact h.controls other otherLimit otherShare hmem
        · rw [heq, hset] at hmem
          rcases List.mem_or_eq_of_mem_set hmem with hold | hnew
          · exact h.controls other otherLimit otherShare hold
          · obtain ⟨-, rfl, -⟩ := Startup.Control.running.inj hnew
            exact h.controls accelerator otherLimit share (List.mem_of_getElem? hcontrol)
  | advanced i created statement rest _ hperformed =>
      cases hperformed with
      | kept _ _ _ heq | exited _ heq =>
          subst heq
          exact ⟨h.config, h.controls⟩
      | read data done hdata heq =>
          subst heq
          exact ⟨fun _ => hfile data hdata, h.controls⟩
      | created accelerator done _ _ heq =>
          subst heq
          refine ⟨h.config, fun other yamlLimit share hmem => ?_⟩
          rcases List.mem_append.mp hmem with hold | hnew
          · exact h.controls other yamlLimit share hold
          · cases List.mem_singleton.mp hnew

/-! ## The manager -/

section Node

variable [Gjson] {ι : Type} [DecidableEq ι] {server : ι → VcoreResourceServer} {cgroupV2 : Bool}
  {containers : String → List Kube.Container} {state next : Lifecycle.System ι}

/-- A pod keeps its containers, and the totals that are read stand for its limits. -/
def MeantNodeAction (containers : String → List Kube.Container) (state : Lifecycle.System ι) :
    Lifecycle.Action ι → Prop
  | .podModified pod => pod.containers = containers pod.uid
  | .handler i ok answered =>
      TotalsReady containers state.manager (.handler i (state.answer i ok answered))
  | _ => True

instance (state : Lifecycle.System ι) :
    ∀ action, Decidable (MeantNodeAction containers state action)
  | .podModified pod => inferInstanceAs (Decidable (pod.containers = _))
  | .handler i ok answered =>
      inferInstanceAs (Decidable (TotalsReady containers state.manager
        (.handler i (state.answer i ok answered))))
  | .plugin _ | .podDeleted _ | .run | .deleter _ | .restart => .isTrue trivial

/-- The manager's files carry the limits of their pods. -/
theorem carried_node_step {action : Lifecycle.Action ι}
    (h : ResourceManager.Inv containers state.manager)
    (haction : MeantNodeAction containers state action)
    (hstep : Lifecycle.step server cgroupV2 state action = some next) :
    ResourceManager.Inv containers next.manager := by
  have hmanaged : ∀ {managerAction : ResourceManager.Action} {after : Lifecycle.System ι},
      state.manage cgroupV2 managerAction = some after →
      (∀ obj, managerAction = .modified obj → PodEvent containers obj) →
      TotalsReady containers state.manager managerAction →
      ResourceManager.Inv containers after.manager := by
    intro managerAction after hmanage hevent hready
    obtain ⟨manager, hmanager, rfl⟩ := Option.map_eq_some_iff.mp hmanage
    exact ResourceManager.inv_step h hevent hready hmanager
  cases action with
  | plugin pluginAction =>
      obtain ⟨plugin, -, rfl⟩ := Option.map_eq_some_iff.mp hstep
      exact h
  | podModified pod =>
      simp only [Lifecycle.step] at hstep
      split at hstep
      · refine hmanaged hstep (fun obj heq => ?_) trivial
        obtain rfl := ResourceManager.Action.modified.inj heq
        exact ⟨pod, rfl, haction⟩
      · cases hstep
  | podDeleted pod =>
      simp only [Lifecycle.step] at hstep
      split at hstep
      · exact hmanaged hstep (by simp) trivial
      · cases hstep
  | run | restart => exact hmanaged hstep (by simp) trivial
  | handler i ok answered => exact hmanaged hstep (by simp) haction
  | deleter i =>
      obtain ⟨middle, hmiddle, rfl⟩ := Option.map_eq_some_iff.mp hstep
      have hcarried : ResourceManager.Inv containers middle.manager :=
        hmanaged hmiddle (by simp) trivial
      exact hcarried

end Node

/-! ## Whole runs -/

section Runs

variable [Gjson] {ι : Type} {containers : String → List Kube.Container}

/-- The totals that the manager reads stand for the limits of their pod, and a control thread starts
after its process has read the configuration. -/
def Meant (containers : String → List Kube.Container) (state : System ι) : Action ι → Prop
  | .node action => MeantNodeAction containers state.node action
  | .hook i j action => ∀ container ∈ state.containers[i]?, ∀ process ∈ container.processes[j]?,
      AfterRead process action
  | _ => True

instance (state : System ι) : ∀ action, Decidable (Meant containers state action)
  | .node action => inferInstanceAs (Decidable (MeantNodeAction containers state.node action))
  | .hook i j action => inferInstanceAs (Decidable (∀ container ∈ state.containers[i]?,
      ∀ process ∈ container.processes[j]?, AfterRead process action))
  | .create .. | .load _ => .isTrue trivial

/-- The containers are isolated, the files carry their limits, and so do the processes of containers
that are not led out of their mounts. -/
structure EnforcedInv (containers : String → List Kube.Container) (state : System ι) : Prop where
  isolated : IsolatedInv state
  manager : ResourceManager.Inv containers state.node.manager
  processes : ∀ container ∈ state.containers, ¬ container.LeavesMount →
    ∀ uid, container.response.Mounts uid →
      ∀ process ∈ container.processes, Limited (limitSum resourceCore (containers uid)) process

/-- What can be read in a container carries the limit of the pod that is mounted. -/
theorem own_limit_read {state : System ι} {container : Launched} {uid : String}
    (h : EnforcedInv containers state) (hcontainer : container ∈ state.containers)
    (hmount : ¬ container.LeavesMount) (hmounts : container.response.Mounts uid) {data : RcData}
    (hread : state.configuration container = some data) :
    data.utilization.toInt = limitSum resourceCore (containers uid) := by
  obtain ⟨owner, hisolated⟩ := h.isolated.containers container hcontainer
  obtain ⟨minorNum, hresponse⟩ := hisolated.response
  have howner : uid = owner := by rwa [hresponse, mounts_iff] at hmounts
  have hpod : data.podUid = uid :=
    (own_configuration_read h.isolated.node.manager hisolated hmount hread).trans howner.symm
  obtain ⟨file, -, hdata⟩ := configuration_place hisolated hmount hread
  unfold Disk.read at hdata
  split at hdata
  · rename_i inode content hentry
    subst hdata
    rw [← hpod]
    exact (h.manager.files.written _ _ _ hentry).utilization
  · cases hdata

variable [DecidableEq ι] {server : ι → VcoreResourceServer} {cgroupV2 : Bool}
  {card : Controller.Accelerator → Startup.Card} {state next : System ι} {action : Action ι}

/-- Every step keeps the limits. -/
theorem enforced_step (h : EnforcedInv containers state) (hplain : action.Plain)
    (hmeant : Meant containers state action)
    (hstep : step server cgroupV2 card state action = some next) : EnforcedInv containers next := by
  have hisolated := isolated_step h.isolated hplain hstep
  cases action with
  | node action =>
      simp only [step] at hstep
      split at hstep
      · obtain ⟨node, hnode, rfl⟩ := Option.map_eq_some_iff.mp hstep
        exact ⟨hisolated, carried_node_step h.manager hmeant hnode, h.processes⟩
      · cases hstep
  | create call containerID kernel image =>
      simp only [step] at hstep
      split at hstep
      · split at hstep <;> cases hstep
        refine ⟨hisolated, h.manager,
          forall_mem_concat h.processes fun _ uid _ process hprocess => ?_⟩
        cases hprocess
      · cases hstep
  | load i =>
      obtain ⟨container, hcontainer, rfl⟩ := Option.map_eq_some_iff.mp hstep
      have hmem := List.mem_of_getElem? hcontainer
      refine ⟨hisolated, h.manager, forall_mem_set h.processes fun hmount uid hmounts => ?_⟩
      refine forall_mem_concat (h.processes container hmem hmount uid hmounts) ⟨?_, ?_⟩
      · exact fun hreads => absurd hreads (by decide)
      · simp [Startup.State.initial]
  | hook i j action =>
      obtain ⟨container, hcontainer, hprocesses⟩ := Option.bind_eq_some_iff.mp hstep
      obtain ⟨process, hprocess, hmoved⟩ := Option.bind_eq_some_iff.mp hprocesses
      obtain ⟨after, hafter, rfl⟩ := Option.map_eq_some_iff.mp hmoved
      have hmem := List.mem_of_getElem? hcontainer
      refine ⟨hisolated, h.manager, forall_mem_set h.processes fun hmount uid hmounts => ?_⟩
      have hlimited := h.processes container hmem hmount uid hmounts
      refine forall_mem_set hlimited ?_
      exact limited_step (hlimited process (List.mem_of_getElem? hprocess))
        (fun data hread => own_limit_read h hmem hmount hmounts hread)
        (hmeant container hcontainer process hprocess) hafter

end Runs

/-- The container that waits for its configuration, until its control thread is scheduled. -/
def limitedContainer : List (Action String) :=
  slowContainer ++ [.hook 0 0 (.advance 0 true), .hook 0 0 (.advance 0 true), .hook 0 0 (.start 0)]

/-- The pods of that run are plain and keep their containers, and what is read is meant. -/
theorem limited_container_meant :
    letI := Gjson.reader
    (∀ pod ∈ onePod.items, PlainDocument pod.toJson) ∧
      (∀ action ∈ limitedContainer, Action.Plain action) ∧
      Along (step nodeServer false blankCard) (Meant fun _ => runningPod.containers)
        (System.initial String onePod freshStore) limitedContainer := by
  decide +kernel

end UniShare.Handshake
