import UniShare.ResourceManager.Steps
import UniShare.ResourceManager.Config

/-!
# The index of containers

Three maps of the manager index the containers of pods: the UIDs of each pod, the name of each UID
and the UID of each name. `index_kept_iff` says on which recordings of container statuses the three
stay consistent, in every run of any number of handlers, deletions and restarts. The second visit
of a handler that has overtaken the flag `PodDoByUID` lists a UID twice, and a name that two pods
share leads to one container only.
-/

namespace UniShare.ResourceManager

open Lib Kube PodWatch

/-- The name of the UID is known, and leads back to it. -/
def VirtualManager.Named (vm : VirtualManager) (uid : String) : Prop :=
  ∃ name, vm.containerNameByUid uid = some name ∧ vm.containerUIDByName name = some uid

/-- A listed UID is listed once and for one pod, and is that of its name. -/
structure VirtualManager.Indexed (vm : VirtualManager) : Prop where
  once : ∀ podUID, (vm.listed podUID).Nodup
  one_pod : ∀ podUID other uid, uid ∈ vm.listed podUID → uid ∈ vm.listed other → podUID = other
  named : ∀ podUID, ∀ uid ∈ vm.listed podUID, vm.Named uid

/-- The UIDs and the names are distinct, no UID is listed and no name is that of a listed UID. -/
structure FreshPairs (vm : VirtualManager) (pairs : List (String × String)) : Prop where
  uids : (pairs.map Prod.fst).Nodup
  names : (pairs.map Prod.snd).Nodup
  unlisted : ∀ pair ∈ pairs, ∀ podUID, pair.1 ∉ vm.listed podUID
  unnamed : ∀ pair ∈ pairs, ∀ podUID, ∀ uid ∈ vm.listed podUID,
    vm.containerNameByUid uid ≠ some pair.2

/-- When a handler records container statuses, these are fresh. -/
def RecordsFresh [Gjson] (state : State) : Action → Prop
  | .handler i _ => ∀ handler ∈ state.handlers[i]?, ∀ statuses, handler.point = .record statuses →
      ∀ pairs ∈ recordedPairs (Gjson.forEach statuses), FreshPairs state.vm pairs
  | _ => True

/-! ## Recording -/

section Record

variable {vm : VirtualManager} {podUID : String}

/-- What is listed after one container has been recorded. -/
theorem mem_listed_record_pair (pair : String × String) (other uid : String) :
    uid ∈ (vm.recordPair podUID pair).listed other ↔
      uid ∈ vm.listed other ∨ other = podUID ∧ uid = pair.1 := by
  rw [record_pair_listed]
  split
  · rename_i heq
    simp [heq]
  · rename_i hne
    simp [hne]

/-- An index after one container has been recorded comes from an index, and the UID was not listed
nor the name that of a listed UID. -/
theorem indexed_of_record_pair {pair : String × String}
    (h : (vm.recordPair podUID pair).Indexed) :
    vm.Indexed ∧ (∀ other, pair.1 ∉ vm.listed other) ∧
      ∀ other, ∀ uid ∈ vm.listed other, vm.containerNameByUid uid ≠ some pair.2 := by
  have hsub : ∀ other uid, uid ∈ vm.listed other →
      uid ∈ (vm.recordPair podUID pair).listed other :=
    fun other uid huid => (mem_listed_record_pair pair other uid).mpr (.inl huid)
  have hnew : pair.1 ∈ (vm.recordPair podUID pair).listed podUID :=
    (mem_listed_record_pair pair podUID pair.1).mpr (.inr ⟨rfl, rfl⟩)
  have hself := h.once podUID
  rw [record_pair_listed, if_pos rfl, List.nodup_append] at hself
  have hunlisted : ∀ other, pair.1 ∉ vm.listed other := by
    intro other hmem
    obtain rfl := h.one_pod other podUID pair.1 (hsub other pair.1 hmem) hnew
    exact hself.2.2 pair.1 hmem pair.1 (by simp) rfl
  -- a listed UID keeps its name, and loses its way back if the name is recorded again
  have hnamed : ∀ other, ∀ uid ∈ vm.listed other, ∃ name, vm.containerNameByUid uid = some name ∧
      name ≠ pair.2 ∧ vm.containerUIDByName name = some uid := by
    intro other uid huid
    have hne : uid ≠ pair.1 := fun heq => hunlisted other (heq ▸ huid)
    obtain ⟨name, hname, hback⟩ := h.named other uid (hsub other uid huid)
    simp only [VirtualManager.recordPair, Function.update_of_ne hne] at hname hback
    by_cases heq : name = pair.2
    · subst heq
      rw [Function.update_self, Option.some.injEq] at hback
      exact absurd hback.symm hne
    · rw [Function.update_of_ne heq] at hback
      exact ⟨name, hname, heq, hback⟩
  refine ⟨⟨fun other => ?_, fun other third uid hother hthird => ?_,
    fun other uid huid => ?_⟩, hunlisted, fun other uid huid => ?_⟩
  · have honce := h.once other
    rw [record_pair_listed] at honce
    split at honce
    · rename_i heq
      exact heq ▸ hself.1
    · exact honce
  · exact h.one_pod other third uid (hsub other uid hother) (hsub third uid hthird)
  · obtain ⟨name, hname, -, hback⟩ := hnamed other uid huid
    exact ⟨name, hname, hback⟩
  · obtain ⟨name, hname, hne, -⟩ := hnamed other uid huid
    rw [hname]
    simpa using hne

/-- Recording a container of a new UID, under a name that no listed UID has, keeps the index. -/
theorem VirtualManager.Indexed.record_pair {pair : String × String} (h : vm.Indexed)
    (hunlisted : ∀ other, pair.1 ∉ vm.listed other)
    (hunnamed : ∀ other, ∀ uid ∈ vm.listed other, vm.containerNameByUid uid ≠ some pair.2) :
    (vm.recordPair podUID pair).Indexed := by
  have hcases : ∀ other uid, uid ∈ (vm.recordPair podUID pair).listed other →
      uid ∈ vm.listed other ∨ other = podUID ∧ uid = pair.1 :=
    fun other uid huid => (mem_listed_record_pair pair other uid).mp huid
  refine ⟨fun other => ?_, fun other third uid hother hthird => ?_, fun other uid huid => ?_⟩
  · rw [record_pair_listed]
    split
    · refine List.nodup_append.mpr ⟨h.once podUID, by simp, fun uid huid last hlast => ?_⟩
      obtain rfl := List.mem_singleton.mp hlast
      exact fun heq => hunlisted podUID (heq ▸ huid)
    · exact h.once other
  · rcases hcases other uid hother with hother | ⟨rfl, rfl⟩
    · rcases hcases third uid hthird with hthird | ⟨-, rfl⟩
      · exact h.one_pod other third uid hother hthird
      · exact absurd hother (hunlisted other)
    · rcases hcases third pair.1 hthird with hthird | ⟨rfl, -⟩
      · exact absurd hthird (hunlisted third)
      · rfl
  · rcases hcases other uid huid with hold | ⟨-, rfl⟩
    · obtain ⟨name, hname, hback⟩ := h.named other uid hold
      have hne : uid ≠ pair.1 := fun heq => hunlisted other (heq ▸ hold)
      have hne' : name ≠ pair.2 := by
        intro heq
        exact hunnamed other uid hold (heq ▸ hname)
      refine ⟨name, ?_, ?_⟩
      · exact (Function.update_of_ne hne ..).trans hname
      · exact (Function.update_of_ne hne' ..).trans hback
    · exact ⟨pair.2, Function.update_self .., Function.update_self ..⟩

/-- Pairs are fresh when the first is, and the others are after it has been recorded. -/
theorem fresh_pairs_cons (pair : String × String) (rest : List (String × String))
    (hunlisted : ∀ other, pair.1 ∉ vm.listed other) :
    FreshPairs vm (pair :: rest) ↔
      (∀ other, ∀ uid ∈ vm.listed other, vm.containerNameByUid uid ≠ some pair.2) ∧
        FreshPairs (vm.recordPair podUID pair) rest := by
  have hmem : ∀ other uid, uid ∈ (vm.recordPair podUID pair).listed other ↔
      uid ∈ vm.listed other ∨ other = podUID ∧ uid = pair.1 := mem_listed_record_pair pair
  have hname : ∀ other, ∀ uid ∈ vm.listed other,
      (vm.recordPair podUID pair).containerNameByUid uid = vm.containerNameByUid uid := by
    intro other uid huid
    have hne : uid ≠ pair.1 := fun heq => hunlisted other (heq ▸ huid)
    exact Function.update_of_ne hne ..
  have hself : (vm.recordPair podUID pair).containerNameByUid pair.1 = some pair.2 :=
    Function.update_self ..
  constructor
  · intro h
    refine ⟨h.unnamed pair (by simp), (List.nodup_cons.mp h.uids).2, (List.nodup_cons.mp h.names).2,
      fun later hlater other hlisted => ?_, fun later hlater other uid huid => ?_⟩
    · rcases (hmem other later.1).mp hlisted with hold | ⟨-, heq⟩
      · exact h.unlisted later (by simp [hlater]) other hold
      · exact (List.nodup_cons.mp h.uids).1 (heq ▸ List.mem_map_of_mem hlater)
    · rcases (hmem other uid).mp huid with hold | ⟨-, rfl⟩
      · rw [hname other uid hold]
        exact h.unnamed later (by simp [hlater]) other uid hold
      · rw [hself]
        intro heq
        exact (List.nodup_cons.mp h.names).1
          (List.mem_map.mpr ⟨later, hlater, (Option.some.inj heq).symm⟩)
  · rintro ⟨hfirst, h⟩
    refine ⟨List.nodup_cons.mpr ⟨?_, h.uids⟩, List.nodup_cons.mpr ⟨?_, h.names⟩,
      fun later hlater other hlisted => ?_, fun later hlater other uid huid => ?_⟩
    · intro hin
      obtain ⟨later, hlater, heq⟩ := List.mem_map.mp hin
      exact h.unlisted later hlater podUID ((hmem podUID later.1).mpr (.inr ⟨rfl, heq⟩))
    · intro hin
      obtain ⟨later, hlater, heq⟩ := List.mem_map.mp hin
      exact h.unnamed later hlater podUID pair.1 ((hmem podUID pair.1).mpr (.inr ⟨rfl, rfl⟩))
        (hself.trans (congrArg some heq.symm))
    · rcases List.mem_cons.mp hlater with rfl | hlater
      · exact hunlisted other hlisted
      · exact h.unlisted later hlater other ((hmem other later.1).mpr (.inl hlisted))
    · rcases List.mem_cons.mp hlater with rfl | hlater
      · exact hfirst other uid huid
      · rw [← hname other uid huid]
        exact h.unnamed later hlater other uid ((hmem other uid).mpr (.inl huid))

/-- Recording containers keeps the index exactly when they are fresh. -/
theorem indexed_record_pairs (pairs : List (String × String)) :
    (pairs.foldl (VirtualManager.recordPair podUID) vm).Indexed ↔
      vm.Indexed ∧ FreshPairs vm pairs := by
  induction pairs generalizing vm with
  | nil => exact ⟨fun h => ⟨h, by simp, by simp, by simp, by simp⟩, fun h => h.1⟩
  | cons pair rest ih =>
      rw [List.foldl_cons, ih]
      constructor
      · intro hafter
        obtain ⟨h, hunlisted, hunnamed⟩ := indexed_of_record_pair hafter.1
        exact ⟨h, (fresh_pairs_cons pair rest hunlisted).mpr ⟨hunnamed, hafter.2⟩⟩
      · intro hbefore
        obtain ⟨h, hfresh⟩ := hbefore
        have hunlisted := hfresh.unlisted pair (by simp)
        obtain ⟨hunnamed, hrest⟩ := (fresh_pairs_cons pair rest hunlisted).mp hfresh
        exact ⟨h.record_pair hunlisted hunnamed, hrest⟩

end Record

/-! ## Deleting -/

/-- Forgetting one container keeps another one's name. -/
theorem forget_container_named {vm : VirtualManager} {uid other : String} (huid : vm.Named uid)
    (hother : vm.Named other) (hne : other ≠ uid) : (vm.forgetContainer uid).Named other := by
  obtain ⟨name, hname, hback⟩ := huid
  obtain ⟨name', hname', hback'⟩ := hother
  have hnames : name' ≠ name := by
    intro heq
    subst heq
    exact hne (Option.some.inj (hback'.symm.trans hback))
  refine ⟨name', (Function.update_of_ne hne ..).trans hname', ?_⟩
  simp only [VirtualManager.forgetContainer, hname, Option.getD_some]
  exact (Function.update_of_ne hnames ..).trans hback'

/-- Forgetting distinct containers keeps the name of any other. -/
theorem forget_containers_named {uids : List String} {vm : VirtualManager} (hnodup : uids.Nodup)
    (huids : ∀ uid ∈ uids, vm.Named uid) {other : String} (hother : vm.Named other)
    (hnot : other ∉ uids) : (uids.foldl VirtualManager.forgetContainer vm).Named other := by
  induction uids generalizing vm with
  | nil => exact hother
  | cons uid rest ih =>
      obtain ⟨hhead, hrest⟩ := List.nodup_cons.mp hnodup
      have hfirst := huids uid (by simp)
      refine ih hrest (fun later hlater => ?_) (forget_container_named hfirst hother ?_) ?_
      · refine forget_container_named hfirst (huids later (by simp [hlater])) ?_
        intro heq
        exact hhead (heq ▸ hlater)
      · intro heq
        exact hnot (heq ▸ List.mem_cons_self ..)
      · intro hmem
        exact hnot (List.mem_cons_of_mem _ hmem)

/-- Forgetting a pod keeps the index. -/
theorem indexed_forget_pod {vm : VirtualManager} (h : vm.Indexed) (podUID : String) :
    (vm.forgetPod podUID).Indexed := by
  refine ⟨fun other => ?_, fun other third uid hother hthird => ?_, fun other uid huid => ?_⟩
  · rw [forget_pod_listed]
    split
    · exact List.nodup_nil
    · exact h.once other
  · rw [forget_pod_listed] at hother hthird
    split at hother
    · cases hother
    · split at hthird
      · cases hthird
      · exact h.one_pod other third uid hother hthird
  · rw [forget_pod_listed] at huid
    split at huid
    · cases huid
    · rename_i hne
      refine forget_containers_named (h.once podUID) (fun listed hlisted => ?_) ?_ ?_
      · exact h.named podUID listed hlisted
      · exact h.named other uid huid
      · intro hlisted
        exact hne (h.one_pod other podUID uid huid hlisted)

/-- A deletion keeps the index. -/
theorem indexed_delete_pod_path [Gjson] {vm : VirtualManager} (h : vm.Indexed) (disk : ConfigDisk)
    (pod : Json) : (deletePodPath vm disk pod).1.Indexed := by
  unfold deletePodPath
  split
  · exact h
  · split
    · exact h
    · exact indexed_forget_pod h (podUID pod)

/-! ## Runs -/

section Runs

variable [Gjson] {state next : State}

/-- A step of a handler keeps the index exactly when what it records is fresh. -/
theorem indexed_moves {cgroupV2 : Bool} {vm after : VirtualManager} {disk made : ConfigDisk}
    {event : Json} {answer : Answer} {point following : HandlerPoint} (h : vm.Indexed)
    (hmoves : Moves cgroupV2 vm disk event answer point after made following) :
    after.Indexed ↔ ∀ statuses, point = .record statuses →
      ∀ pairs ∈ recordedPairs (Gjson.forEach statuses), FreshPairs vm pairs := by
  cases hmoves with
  | record statuses pairs hpairs hne =>
      rw [indexed_record_pairs]
      constructor
      · rintro ⟨-, hfresh⟩ other ⟨⟩ found hfound
        rw [hpairs] at hfound
        exact Option.some.inj hfound ▸ hfresh
      · intro hall
        exact ⟨h, hall statuses rfl pairs hpairs⟩
  | recordNone statuses hpairs =>
      refine iff_of_true h ?_
      rintro other ⟨⟩ found hfound
      rw [hpairs] at hfound
      obtain rfl := Option.some.inj hfound
      exact ⟨by simp, by simp, by simp, by simp⟩
  | _ => exact iff_of_true ⟨h.once, h.one_pod, h.named⟩ (by simp)

/-- A step of the machine keeps the index exactly when what it records is fresh. -/
theorem indexed_step {cgroupV2 : Bool} {action : Action} (h : state.vm.Indexed)
    (hstep : step cgroupV2 state action = some next) :
    next.vm.Indexed ↔ RecordsFresh state action := by
  cases effect_of_step hstep with
  | restart heq =>
      subst heq
      exact iff_of_true ⟨by simp [State.boot, newVirtualManager, VirtualManager.listed],
        by simp [State.boot, newVirtualManager, VirtualManager.listed],
        by simp [State.boot, newVirtualManager, VirtualManager.listed]⟩ trivial
  | modified _ heq | deleted _ heq =>
      subst heq
      exact iff_of_true h trivial
  | run podMgr run spawn _ heq =>
      subst heq
      refine iff_of_true ?_ trivial
      rcases spawn with _ | pod | pod <;> exact h
  | handler i answer handler vm disk point hhandler hmoves heq =>
      subst heq
      rw [indexed_moves h hmoves]
      constructor
      · intro hall found hfound
        rw [hhandler] at hfound
        exact Option.some.inj hfound ▸ hall
      · intro hall
        exact hall handler hhandler
  | updated i answer handler copyPod pod hhandler hpoint heq =>
      subst heq
      refine iff_of_true h fun found hfound => ?_
      rw [hhandler] at hfound
      obtain rfl := Option.some.inj hfound
      simp [hpoint]
  | runPanic heq =>
      subst heq
      exact iff_of_true h trivial
  | handlerPanic i answer handler hhandler hnone heq =>
      subst heq
      refine iff_of_true h fun found hfound statuses hpoint pairs hpairs => ?_
      rw [hhandler] at hfound
      obtain rfl := Option.some.inj hfound
      rw [hnone statuses hpoint] at hpairs
      cases hpairs
  | deleter i pod _ heq =>
      subst heq
      exact iff_of_true (indexed_delete_pod_path h state.disk pod) trivial

end Runs

/-- In every run, the index is consistent in every state reached exactly when every recording of
container statuses is fresh. -/
theorem index_kept_iff [Gjson] (cgroupV2 : Bool) (actions : List Action) :
    Always (step cgroupV2) (fun state => state.vm.Indexed) State.initial actions ↔
      Along (step cgroupV2) RecordsFresh State.initial actions := by
  have hinitial : State.initial.vm.Indexed :=
    ⟨fun _ => List.nodup_nil, by simp [State.initial, State.boot, newVirtualManager,
      VirtualManager.listed], by simp [State.initial, State.boot, newVirtualManager,
      VirtualManager.listed]⟩
  have hkept : ∀ (state : State) (action : Action) (next : State), True →
      step cgroupV2 state action = some next → True := fun _ _ _ _ _ => trivial
  exact always_iff_along hkept
    (fun state action next _ h hstep => indexed_step h hstep) actions trivial hinitial

/-- Two events of a running pod, whose handlers both pass the flag before either records the
container. -/
def overlappingVisits : List Action :=
  [[.modified runningPod.toJson, .modified runningPod.toJson], List.replicate 7 .run,
    List.replicate 2 (.handler 0 answered), List.replicate 3 (.handler 1 answered),
    [.handler 0 answered]].flatten

/-- The only container belongs to `uid-a`. -/
theorem overlapping_visits_own :
    letI := Gjson.reader
    ∀ action ∈ overlappingVisits, Action.OwnStatuses (fun _ => ("uid-a", "main")) action := by
  decide +kernel

/-- Its UID is then listed twice. -/
theorem index_kept_counterexample :
    letI := Gjson.reader
    ¬ ∀ (cgroupV2 : Bool) (owner : String → String × String) (actions : List Action),
        (∀ action ∈ actions, Action.OwnStatuses owner action) →
          Always (step cgroupV2) (fun state => state.vm.Indexed) State.initial actions := by
  intro h
  let reader := Gjson.reader
  have hrun : (exec (step false) State.initial overlappingVisits).map
        (fun state => state.vm.listed "uid-a") = some ["c1", "c1"] := by decide +kernel
  obtain ⟨state, hstate, hlisted⟩ := Option.map_eq_some_iff.mp hrun
  have hindexed := (h false _ overlappingVisits overlapping_visits_own).final hstate
  have honce := hindexed.once "uid-a"
  rw [hlisted] at honce
  exact absurd honce (by decide)

end UniShare.ResourceManager
