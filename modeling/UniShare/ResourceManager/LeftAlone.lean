import UniShare.ResourceManager.Config
import UniShare.ResourceManager.Statuses

/-!
# The pods that a handler leaves alone

One call of `creatVcudaServer` with no other goroutine at work. Its gate lets a pod through when
some container has resource requests, whatever they are for, so a pod without accelerators is left
alone only when something behind the gate ends the call (`left_alone_iff`).
-/

namespace UniShare.ResourceManager

open Lib Kube StateTransition

/-- A manager with these maps and this disk, and one handler. -/
def State.handling (vm : VirtualManager) (disk : ConfigDisk) (event : Json)
    (point : HandlerPoint) : State :=
  { State.initial with vm, disk, handlers := [⟨event, point⟩] }

/-- The next step of the manager when only its first handler moves. -/
def handlerAlone [Gjson] (cgroupV2 : Bool) (answers : HandlerPoint → Answer) (state : State) :
    Option State :=
  state.handlers[0]?.bind fun handler =>
    step cgroupV2 state (.handler 0 (answers handler.point))

/-- Nothing has changed: the process runs, with its maps and its disk as they were, and no update
has been sent. -/
structure LeftAlone (vm : VirtualManager) (disk : ConfigDisk) (state : State) : Prop where
  running : state.crashed = false
  maps : state.vm = vm
  files : state.disk = disk
  noUpdate : state.updates = []

/-- The resources of an accelerator. -/
def acceleratorResources : List String :=
  [resourceCore, resourceMemory, mluResourceCore, mluResourceMemory]

/-- The document of a pod none of whose containers has a limit or a request for an accelerator. -/
structure PlainEvent [Gjson] where
  event : Json
  plain : ∀ value ∈ specContainers event, ∀ list ∈ ["limits", "requests"],
    ∀ resource ∈ acceleratorResources,
      Json.member (Gjson.get (Gjson.get (some value) "resources") list) resource = none

/-- What ends a call behind the gate before it changes anything: it comes to the statuses and finds
no container to record, or the pod has been visited. -/
structure PassedOver [Gjson] (vm : VirtualManager) (event : Json)
    (answers : HandlerPoint → Answer) : Prop where
  served : Serves vm event → ∀ k statuses, FoundAt event answers k statuses →
    ∀ status ∈ Gjson.forEach (some statuses), ¬ Recorded status
  visited : ¬ Serves vm event → (vm.podVisitedByUID (podUID event)).getD false = true

section Steps

variable [Gjson] {cgroupV2 : Bool} {answers : HandlerPoint → Answer} {vm next : VirtualManager}
  {disk after : ConfigDisk} {event : Json} {point following : HandlerPoint}

/-- The handler goes on as `creatVcudaServer` does. -/
theorem alone_next (answers : HandlerPoint → Answer)
    (h : creatVcudaServer cgroupV2 vm disk event (answers point) point =
      .next next after following) :
    handlerAlone cgroupV2 answers (.handling vm disk event point) =
      some (.handling next after event following) := by
  simp [handlerAlone, State.handling, State.initial, State.boot, step, State.handlerNext, h]

/-- A handler that has finished leaves everything as it is. -/
theorem alone_finished :
    Completes (handlerAlone cgroupV2 answers) (LeftAlone vm disk)
      (.handling vm disk event .finished) := by
  have hstop : handlerAlone cgroupV2 answers (.handling vm disk event .finished) = none := by
    simp [handlerAlone, State.handling, State.initial, State.boot, step, State.handlerNext,
      creatVcudaServer]
  exact (completes_iff_of_stop hstop).mpr ⟨rfl, rfl, rfl, rfl⟩

/-- A panic does not leave the maps as they were: they are gone with the process. -/
theorem alone_panic
    (h : creatVcudaServer cgroupV2 vm disk event (answers point) point = .panic) :
    ¬ Completes (handlerAlone cgroupV2 answers) (LeftAlone vm disk)
      (.handling vm disk event point) := by
  have hstep : handlerAlone cgroupV2 answers (.handling vm disk event point) =
      some { State.handling vm disk event point with crashed := true } := by
    simp [handlerAlone, State.handling, State.initial, State.boot, step, State.handlerNext, h]
  have hstop : handlerAlone cgroupV2 answers
      { State.handling vm disk event point with crashed := true } = none := by
    simp [handlerAlone, State.handling, step]
  rw [completes_iff_of_step hstep, completes_iff_of_stop hstop]
  exact fun hleft => Bool.noConfusion hleft.running

/-- When what the handler has done to the maps stays to its end, nothing that it ends in has the old
maps. -/
theorem not_left_alone (changed : HandlerPoint → VirtualManager → Prop) {old : VirtualManager}
    {before : ConfigDisk}
    (hmoves : ∀ {point vm disk answer next after following}, changed point vm →
      Moves cgroupV2 vm disk event answer point next after following → changed following next)
    (hfinished : ∀ {point vm}, changed point vm → changed .finished vm)
    (hold : ∀ point, ¬ changed point old) (h : changed point vm) :
    ¬ Completes (handlerAlone cgroupV2 answers) (LeftAlone old before)
      (.handling vm disk event point) := by
  intro hcompletes
  let inv : State → Prop := fun state =>
    ∃ point, state.handlers = [⟨event, point⟩] ∧ (state.crashed = true ∨ changed point state.vm)
  have hpreserve : ∀ state next, inv state →
      handlerAlone cgroupV2 answers state = some next → inv next := by
    intro state next ⟨point, hhandlers, hchanged⟩ hstep
    obtain ⟨handler, hhandler, hstep⟩ := Option.bind_eq_some_iff.mp hstep
    have hrunning : state.crashed = false := by
      by_contra hcrashed
      simp [step, hcrashed] at hstep
    have hchanged : changed point state.vm := hchanged.resolve_left (by simp [hrunning])
    rw [hhandlers] at hhandler
    obtain rfl : ⟨event, point⟩ = handler := Option.some.inj hhandler
    cases effect_of_step hstep with
    | handler _ _ other vm disk following hother hmove hnext =>
        rw [hhandlers] at hother
        obtain rfl : ⟨event, point⟩ = other := Option.some.inj hother
        subst hnext
        exact ⟨following, by simp [hhandlers], .inr (hmoves hchanged hmove)⟩
    | updated _ _ other copyPod pod hother hpoint hnext =>
        rw [hhandlers] at hother
        obtain rfl : ⟨event, point⟩ = other := Option.some.inj hother
        subst hnext
        exact ⟨.finished, by simp [hhandlers], .inr (hfinished hchanged)⟩
    | handlerPanic _ _ _ _ _ hnext =>
        subst hnext
        exact ⟨point, hhandlers, .inl rfl⟩
  obtain ⟨final, ⟨last, -, hlast⟩, hleft⟩ :=
    hcompletes.invariant hpreserve ⟨point, rfl, .inr h⟩
  rcases hlast with hcrashed | hchanged
  · exact Bool.noConfusion (hleft.running.symm.trans hcrashed)
  · exact hold last (hleft.maps ▸ hchanged)

end Steps

/-! ## What stays -/

/-- The points behind the loop over the statuses. -/
def HandlerPoint.AfterRecord : HandlerPoint → Prop
  | .entry | .await _ _ | .record _ => False
  | _ => True

/-- The points behind the visit. -/
def HandlerPoint.AfterMark : HandlerPoint → Prop
  | .podDir | .requests | .getPod | .annotate _ | .finished => True
  | _ => False

section Stays

variable [Gjson] {cgroupV2 : Bool} {vm next : VirtualManager} {disk after : ConfigDisk}
  {event : Json} {answer : Answer} {point following : HandlerPoint}

/-- Behind the loop over the statuses no container is listed any more. -/
theorem listed_of_moves (h : point.AfterRecord)
    (hmoves : Moves cgroupV2 vm disk event answer point next after following) :
    following.AfterRecord ∧ next.listed = vm.listed := by
  cases hmoves with
  | refuse | serve | skip | giveUp | statuses | again | record | recordNone => exact h.elim
  | _ => exact ⟨trivial, rfl⟩

/-- Behind the visit the pod stays visited. -/
theorem visited_of_moves (h : point.AfterMark)
    (hmoves : Moves cgroupV2 vm disk event answer point next after following) :
    following.AfterMark ∧ next.podVisitedByUID = vm.podVisitedByUID := by
  cases hmoves with
  | podDirFailed | podDir | requests | getPodFailed | getPod => exact ⟨trivial, rfl⟩
  | _ => exact h.elim

end Stays

/-! ## The pods that are left alone -/

section Calls

variable [Gjson] {cgroupV2 : Bool} {answers : HandlerPoint → Answer} {vm : VirtualManager}
  {disk : ConfigDisk} {event : Json}

/-- A call that records statuses leaves everything as it is exactly when it records no container. -/
theorem left_alone_record_iff (statuses : Json) :
    Completes (handlerAlone cgroupV2 answers) (LeftAlone vm disk)
        (.handling vm disk event (.record (some statuses))) ↔
      ∀ status ∈ Gjson.forEach (some statuses), ¬ Recorded status := by
  rw [← recorded_pairs_eq_nil_iff]
  cases hpairs : recordedPairs (Gjson.forEach (some statuses)) with
  | none =>
      have hpanic : creatVcudaServer cgroupV2 vm disk event (answers (.record (some statuses)))
          (.record (some statuses)) = .panic := by
        simp [creatVcudaServer, record_containers_eq, hpairs]
      exact iff_of_false (alone_panic hpanic) (by simp)
  | some pairs =>
      cases pairs with
      | nil =>
          have hstep := alone_next answers (show creatVcudaServer cgroupV2 vm disk event
            (answers (.record (some statuses))) (.record (some statuses)) =
              .next vm disk .finished by simp [creatVcudaServer, record_containers_eq, hpairs])
          rw [completes_iff_of_step hstep]
          exact iff_of_true alone_finished rfl
      | cons pair rest =>
          let recorded := (pair :: rest).foldl (VirtualManager.recordPair (podUID event)) vm
          have hstep := alone_next answers (show creatVcudaServer cgroupV2 vm disk event
            (answers (.record (some statuses))) (.record (some statuses)) =
              .next recorded disk .list by
                simp [creatVcudaServer, record_containers_eq, hpairs, recorded])
          have hlisted : recorded.listed (podUID event) ≠ vm.listed (podUID event) := by
            intro hsame
            have hlength := congrArg List.length hsame
            simp only [recorded, record_pairs_listed, if_true, List.length_append, List.length_map,
              List.length_cons] at hlength
            omega
          rw [completes_iff_of_step hstep]
          refine iff_of_false (not_left_alone
            (fun point vm' => point.AfterRecord ∧
              vm'.listed (podUID event) ≠ vm.listed (podUID event))
            (fun h hmoves => ?_) (fun h => ⟨trivial, h.2⟩) (fun _ h => h.2 rfl)
            ⟨trivial, hlisted⟩) (by simp)
          obtain ⟨hafter, hkept⟩ := listed_of_moves h.1 hmoves
          exact ⟨hafter, hkept ▸ h.2⟩

/-- A call that comes to the visit leaves everything as it is exactly when the pod has been visited
before. -/
theorem left_alone_visited_iff :
    Completes (handlerAlone cgroupV2 answers) (LeftAlone vm disk)
        (.handling vm disk event .visited) ↔
      (vm.podVisitedByUID (podUID event)).getD false = true := by
  by_cases hvisited : (vm.podVisitedByUID (podUID event)).getD false = true
  · have hstep := alone_next answers (show creatVcudaServer cgroupV2 vm disk event
      (answers .visited) .visited = .next vm disk .finished by simp [creatVcudaServer, hvisited])
    rw [completes_iff_of_step hstep]
    exact iff_of_true alone_finished hvisited
  · have hfirst := alone_next answers (show creatVcudaServer cgroupV2 vm disk event
      (answers .visited) .visited = .next vm disk .mark by simp [creatVcudaServer, hvisited])
    have hmark := alone_next answers (show creatVcudaServer cgroupV2 vm disk event
      (answers .mark) .mark = .next (vm.markVisited (podUID event) event) disk .podDir from rfl)
    rw [completes_iff_of_step hfirst, completes_iff_of_step hmark]
    refine iff_of_false (not_left_alone
      (fun point vm' => point.AfterMark ∧
        (vm'.podVisitedByUID (podUID event)).getD false = true)
      (fun h hmoves => ?_) (fun h => ⟨trivial, h.2⟩) (fun _ h => hvisited h.2)
      ⟨trivial, by simp [VirtualManager.markVisited]⟩) hvisited
    obtain ⟨hafter, hkept⟩ := visited_of_moves h.1 hmoves
    exact ⟨hafter, hkept ▸ h.2⟩

/-- A call leaves everything as it is exactly when its gate refuses the event, or the call ends
behind the gate before it changes anything. -/
theorem left_alone_event_iff (event : Json) :
    Completes (handlerAlone cgroupV2 answers) (LeftAlone vm disk)
        (.handling vm disk event .entry) ↔
      (accepted event = true → PassedOver vm event answers) := by
  by_cases haccepted : accepted event = true
  · rw [forall_prop_of_true haccepted]
    by_cases hserves : Serves vm event
    · have hentry := alone_next answers (show creatVcudaServer cgroupV2 vm disk event
        (answers .entry) .entry = .next vm disk (.await 0 (containerStatuses event)) by
          simp [creatVcudaServer, haccepted, hserves.1, hserves.2])
      have hwait : ∀ tries statuses, handlerAlone cgroupV2 answers
          (.handling vm disk event (.await tries statuses)) = some (.handling vm disk event
            (awaitNext (answers (.await tries statuses)) tries statuses)) := fun tries statuses =>
        alone_next answers (creat_vcuda_server_await cgroupV2 vm disk event _ tries statuses)
      rw [completes_iff_of_step hentry]
      rcases await_reaches event answers hwait with
        ⟨k, statuses, hfound, hreaches⟩ | ⟨hnever, hreaches⟩
      · rw [completes_iff_of_reaches hreaches, left_alone_record_iff]
        constructor
        · intro hnone
          exact ⟨fun _ other later hother => hfound.unique hother ▸ hnone, (absurd hserves ·)⟩
        · intro hpassed
          exact hpassed.served hserves k statuses hfound
      · rw [completes_iff_of_reaches hreaches]
        exact iff_of_true alone_finished
          ⟨fun _ k statuses hfound => (hnever k statuses hfound).elim, (absurd hserves ·)⟩
    · have hentry := alone_next answers (show creatVcudaServer cgroupV2 vm disk event
        (answers .entry) .entry = .next vm disk .visited by
          rw [creatVcudaServer, haccepted]
          exact if_neg hserves)
      rw [completes_iff_of_step hentry, left_alone_visited_iff]
      exact ⟨fun hvisited => ⟨(absurd · hserves), fun _ => hvisited⟩, fun h => h.visited hserves⟩
  · have hentry := alone_next answers (show creatVcudaServer cgroupV2 vm disk event
      (answers .entry) .entry = .next vm disk .finished by simp [creatVcudaServer, haccepted])
    rw [completes_iff_of_step hentry]
    exact iff_of_true alone_finished (absurd · haccepted)

end Calls

/-- A call for a pod that asks for no accelerator leaves everything as it is exactly when some check
refuses the pod's document, or the call ends behind the checks before it changes anything: it finds
no container to record, or the pod has been visited. -/
theorem left_alone_iff [Gjson] (cgroupV2 : Bool) (event : PlainEvent)
    (answers : HandlerPoint → Answer) (vm : VirtualManager) (disk : ConfigDisk) :
    Completes (handlerAlone cgroupV2 answers) (LeftAlone vm disk)
        (.handling vm disk event.event .entry) ↔
      (accepted event.event = true → PassedOver vm event.event answers) :=
  left_alone_event_iff event.event

/-- A pod without accelerators: its container asks for processors of the node. -/
def plainPod : Pod :=
  { scheduledPod with
    containers :=
      [{ name := "main", requests := [("cpu", PluginRegister.tenUnits)], limits := [] }] }

/-- The document of that pod. -/
def plainEvent : @PlainEvent Gjson.reader :=
  let _ := Gjson.reader
  ⟨plainPod.toJson, by decide +kernel⟩

/-- Its handler visits it, makes its directory and sends an update. -/
theorem left_alone_counterexample :
    letI := Gjson.reader
    ¬ ∀ (cgroupV2 : Bool) (event : PlainEvent) (answers : HandlerPoint → Answer)
        (vm : VirtualManager) (disk : ConfigDisk),
      Completes (handlerAlone cgroupV2 answers) (LeftAlone vm disk)
        (.handling vm disk event.event .entry) := by
  intro h
  let reader := Gjson.reader
  have hcompletes := h false plainEvent (fun _ => answered) newVirtualManager (.empty ResourceData)
  have hrun : (exec (fun state (_ : Unit) => handlerAlone false (fun _ => answered) state)
      (.handling newVirtualManager (.empty ResourceData) plainEvent.event .entry)
      (List.replicate 7 ())).map (fun state =>
        (state.vm.podVisitedByUID "uid-a", state.disk.entry (baseDir ["uid-a"]),
          state.updates.length, (handlerAlone false (fun _ => answered) state).isNone)) =
      some (some true, some .dir, 1, true) := by decide +kernel
  obtain ⟨final, hfinal, hends⟩ := Option.map_eq_some_iff.mp hrun
  obtain ⟨-, -, hupdates, hstop⟩ : _ ∧ _ ∧ final.updates.length = 1 ∧ _ := by
    simpa only [Prod.mk.injEq] using hends
  rw [completes_iff_of_reaches (reaches_of_exec hfinal),
    completes_iff_of_stop (Option.isNone_iff_eq_none.mp hstop)] at hcompletes
  rw [hcompletes.noUpdate] at hupdates
  cases hupdates

end UniShare.ResourceManager
