import UniShare.ResourceManager.Config
import UniShare.ResourceManager.Statuses

/-!
# What can crash a handler

One call of `creatVcudaServer` among other goroutines: at each point it finds the maps and the disk
as the others have left them. A frame is the handler's point with what it has done to `vm.mu`. A
call comes to its end with the lock released exactly when no index behind `docker://` is out of
range and the pod that is read back has annotations (`calls_return_iff`);
`in_call_of_exec` finds such a call for every handler of a run of the machine.
-/

namespace UniShare.ResourceManager

open Lib Kube StateTransition

/-- What a handler finds at a point: the maps, the disk, and what the environment answers. -/
structure Sight where
  vm : VirtualManager
  disk : ConfigDisk
  answer : Answer

/-- `vm.mu.Lock` and `vm.mu.Unlock` -/
inductive MuOp where
  | lock
  | unlock
  deriving DecidableEq

/-- Every lock is followed by its unlock. -/
def Released : List MuOp → Prop
  | [] => True
  | .lock :: .unlock :: rest => Released rest
  | _ => False

/-- What a handler does to the lock before it accesses the maps at a point. -/
def HandlerPoint.enter : HandlerPoint → List MuOp
  | .record _ | .totals .. | .mark | .requests => [.lock]
  | _ => []

/-- What it does to the lock afterwards. -/
def HandlerPoint.leave : HandlerPoint → List MuOp
  | .record _ | .totals .. | .mark | .requests => [.unlock]
  | _ => []

/-- Where a handler is, what it has done to the lock, and whether it has panicked. -/
structure Frame where
  point : HandlerPoint
  mu : List MuOp
  panicked : Bool

/-- A handler that has not done anything to the lock. -/
def Frame.start (point : HandlerPoint) : Frame := ⟨point, [], false⟩

/-- The next step of a handler. A panic comes before the unlock of its region, which is not
deferred. -/
def handlerStep [Gjson] (cgroupV2 : Bool) (event : Json) (sights : HandlerPoint → Sight)
    (frame : Frame) : Option Frame :=
  if frame.panicked then none
  else
    match creatVcudaServer cgroupV2 (sights frame.point).vm (sights frame.point).disk event
        (sights frame.point).answer frame.point with
    | .stuck => none
    | .panic => some { frame with mu := frame.mu ++ frame.point.enter, panicked := true }
    | .next _ _ point =>
        some { frame with
          point := point, mu := frame.mu ++ (frame.point.enter ++ frame.point.leave) }
    | .update _ => some { frame with point := .finished }

/-- What `deletePodPath` does to the lock, which it releases by `defer`. -/
def deletePodPathMu [Gjson] (event : Json) : List MuOp :=
  if acceptedDelete event then [.lock, .unlock] else []

/-- The call has come to its end, with the lock released. -/
structure Returned (frame : Frame) : Prop where
  running : frame.panicked = false
  finished : frame.point = .finished
  released : Released frame.mu

/-- A call that comes to writing an annotation into this pod: the event passes the checks, the call
records a container if it looks at statuses, the pod has not been visited, its directory is made,
and the request for the pod is answered. -/
structure Annotates [Gjson] (event : Json) (sights : HandlerPoint → Sight) (copyPod : Pod) :
    Prop where
  accepted : accepted event = true
  records : Serves (sights .entry).vm event → ∃ k statuses,
    FoundAt event (fun point => (sights point).answer) k statuses ∧
      ∃ status ∈ Gjson.forEach (some statuses), Recorded status
  unvisited : ((sights .visited).vm.podVisitedByUID (podUID event)).getD false = false
  made : (sights .podDir).answer.ok = true ∧
    ((sights .podDir).disk.mkdirAll (baseDir [podUID event])).isSome
  answered : (sights .getPod).answer.pod = some copyPod

/-- What keeps a call from a panic: every container that it records runs under Docker, and the pod
into which it writes an annotation has some. -/
structure NoPanic [Gjson] (event : Json) (sights : HandlerPoint → Sight) : Prop where
  docker : accepted event = true → Serves (sights .entry).vm event → ∀ k statuses,
    FoundAt event (fun point => (sights point).answer) k statuses →
      ∀ status ∈ Gjson.forEach (some statuses), Recorded status → DockerID status
  annotated : ∀ copyPod, Annotates event sights copyPod → copyPod.annotations.isSome

/-! ## The lock -/

/-- A released lock stays so over a region. -/
theorem released_append {ops more : List MuOp} (h : Released ops) (hmore : Released more) :
    Released (ops ++ more) := by
  induction ops using Released.induct with
  | case1 => exact hmore
  | case2 rest ih => exact ih h
  | case3 ops hnil hpair => simp [Released] at h

/-- A lock that was never taken is released. -/
theorem released_nil : Released [] := trivial

/-- A released lock is released when a handler leaves a point. -/
theorem released_step {mu : List MuOp} (h : Released mu) (point : HandlerPoint) :
    Released (mu ++ (point.enter ++ point.leave)) :=
  released_append h (by cases point <;> trivial)

section Calls

variable [Gjson] {cgroupV2 : Bool} {event : Json} {sights : HandlerPoint → Sight}
  {point following : HandlerPoint} {mu : List MuOp}

/-- From what it finds at a point, a handler goes on to another. -/
def GoesOn (cgroupV2 : Bool) (event : Json) (sights : HandlerPoint → Sight)
    (point following : HandlerPoint) : Prop :=
  ∃ vm disk, creatVcudaServer cgroupV2 (sights point).vm (sights point).disk event
    (sights point).answer point = .next vm disk following

/-- A handler that goes on has released the lock. -/
theorem handler_step_next (h : GoesOn cgroupV2 event sights point following) :
    handlerStep cgroupV2 event sights ⟨point, mu, false⟩ =
      some ⟨following, mu ++ (point.enter ++ point.leave), false⟩ := by
  obtain ⟨vm, disk, h⟩ := h
  simp [handlerStep, h]

/-- A call ends as it does after it has gone on. -/
theorem returned_next_iff (h : GoesOn cgroupV2 event sights point following) :
    Completes (handlerStep cgroupV2 event sights) Returned ⟨point, mu, false⟩ ↔
      Completes (handlerStep cgroupV2 event sights) Returned
        ⟨following, mu ++ (point.enter ++ point.leave), false⟩ :=
  completes_iff_of_step (handler_step_next h)

/-- A handler that has finished returns when it has released the lock. -/
theorem returned_finished (hmu : Released mu) :
    Completes (handlerStep cgroupV2 event sights) Returned ⟨.finished, mu, false⟩ :=
  (completes_iff_of_stop rfl).mpr ⟨rfl, rfl, hmu⟩

/-- A handler that panics does not return. -/
theorem not_returned_panic
    (h : creatVcudaServer cgroupV2 (sights point).vm (sights point).disk event
      (sights point).answer point = .panic) :
    ¬ Completes (handlerStep cgroupV2 event sights) Returned ⟨point, mu, false⟩ := by
  have hstep : handlerStep cgroupV2 event sights ⟨point, mu, false⟩ =
      some ⟨point, mu ++ point.enter, true⟩ := by simp [handlerStep, h]
  rw [completes_iff_of_step hstep, completes_iff_of_stop rfl]
  exact fun hreturned => Bool.noConfusion hreturned.running

/-- Writing the annotation returns exactly when the map is not nil. -/
theorem returned_annotate_iff (hmu : Released mu) (copyPod : Pod) :
    Completes (handlerStep cgroupV2 event sights) Returned ⟨.annotate copyPod, mu, false⟩ ↔
      copyPod.annotations.isSome := by
  by_cases hsome : copyPod.annotations.isSome
  · have hstep : handlerStep cgroupV2 event sights ⟨.annotate copyPod, mu, false⟩ =
        some ⟨.finished, mu, false⟩ := by simp [handlerStep, creatVcudaServer, hsome]
    rw [completes_iff_of_step hstep]
    exact iff_of_true (returned_finished hmu) hsome
  · exact iff_of_false (not_returned_panic (by simp [creatVcudaServer, hsome])) hsome

/-- From the request for the pod on, only a pod without annotations keeps a call from its end. -/
theorem returned_get_pod_iff (hmu : Released mu) :
    Completes (handlerStep cgroupV2 event sights) Returned ⟨.getPod, mu, false⟩ ↔
      ∀ copyPod, (sights .getPod).answer.pod = some copyPod → copyPod.annotations.isSome := by
  cases hpod : (sights .getPod).answer.pod with
  | none =>
      have hfailed : GoesOn cgroupV2 event sights .getPod .finished :=
        ⟨_, _, by rw [creatVcudaServer, hpod]⟩
      rw [returned_next_iff hfailed]
      exact iff_of_true (returned_finished (released_step hmu _)) (by simp)
  | some copyPod =>
      have hanswered : GoesOn cgroupV2 event sights .getPod (.annotate copyPod) :=
        ⟨_, _, by rw [creatVcudaServer, hpod]⟩
      rw [returned_next_iff hanswered, returned_annotate_iff (released_step hmu _)]
      simp

/-- From the visit on, only a pod without annotations keeps a call from its end. -/
theorem returned_visited_iff (hmu : Released mu) :
    Completes (handlerStep cgroupV2 event sights) Returned ⟨.visited, mu, false⟩ ↔
      (((sights .visited).vm.podVisitedByUID (podUID event)).getD false = false →
        (sights .podDir).answer.ok = true ∧
          ((sights .podDir).disk.mkdirAll (baseDir [podUID event])).isSome →
        ∀ copyPod, (sights .getPod).answer.pod = some copyPod → copyPod.annotations.isSome) := by
  by_cases hvisited : ((sights .visited).vm.podVisitedByUID (podUID event)).getD false = true
  · have hended : GoesOn cgroupV2 event sights .visited .finished := ⟨_, _, if_pos hvisited⟩
    rw [returned_next_iff hended]
    exact iff_of_true (returned_finished (released_step hmu _))
      (fun hnot => by simp [hvisited] at hnot)
  have hgoes : GoesOn cgroupV2 event sights .visited .mark := ⟨_, _, if_neg hvisited⟩
  have hmark : GoesOn cgroupV2 event sights .mark .podDir := ⟨_, _, rfl⟩
  rw [Bool.not_eq_true] at hvisited
  rw [returned_next_iff hgoes, returned_next_iff hmark, forall_prop_of_true hvisited]
  have hmu := released_step (released_step hmu .visited) .mark
  cases hmade : (if (sights .podDir).answer.ok then
      (sights .podDir).disk.mkdirAll (baseDir [podUID event]) else none) with
  | none =>
      have hfailed : GoesOn cgroupV2 event sights .podDir .finished :=
        ⟨_, _, by rw [creatVcudaServer, hmade]⟩
      rw [returned_next_iff hfailed]
      refine iff_of_true (returned_finished (released_step hmu _)) fun h => ?_
      obtain ⟨hok, hsome⟩ := h
      rw [if_pos hok] at hmade
      simp [hmade] at hsome
  | some made =>
      have hdir : GoesOn cgroupV2 event sights .podDir .requests :=
        ⟨_, _, by rw [creatVcudaServer, hmade]⟩
      have hrequests : GoesOn cgroupV2 event sights .requests .getPod := ⟨_, _, rfl⟩
      obtain ⟨hok, hmade⟩ := Option.ite_none_right_eq_some.mp hmade
      rw [returned_next_iff hdir, returned_next_iff hrequests,
        returned_get_pod_iff (released_step (released_step hmu _) _),
        forall_prop_of_true ⟨hok, by rw [hmade]; rfl⟩]

/-- Going on from a point to another with the lock released before and after. -/
def ReachesReleased (cgroupV2 : Bool) (event : Json) (sights : HandlerPoint → Sight)
    (point target : HandlerPoint) : Prop :=
  ∀ mu, Released mu → ∃ after, Released after ∧
    Reaches (handlerStep cgroupV2 event sights) ⟨point, mu, false⟩ ⟨target, after, false⟩

/-- One more point in front. -/
theorem ReachesReleased.head {target : HandlerPoint}
    (h : ReachesReleased cgroupV2 event sights following target)
    (hgoes : GoesOn cgroupV2 event sights point following) :
    ReachesReleased cgroupV2 event sights point target := by
  intro mu hmu
  obtain ⟨after, hafter, hreaches⟩ := h _ (released_step hmu point)
  exact ⟨after, hafter, hreaches.head (handler_step_next hgoes)⟩

/-- The loop over the containers comes to its end, with the lock released. -/
theorem dir_name_reaches (contUidList : List String) :
    ReachesReleased cgroupV2 event sights (.dirName contUidList) .markDone := by
  induction contUidList with
  | nil =>
      have hhere : ReachesReleased cgroupV2 event sights .markDone .markDone :=
        fun mu hmu => ⟨mu, hmu, .refl⟩
      exact hhere.head ⟨_, _, rfl⟩
  | cons uid rest ih =>
      have hcreate : ∀ file data,
          ReachesReleased cgroupV2 event sights (.create file data rest) .markDone := by
        intro file data
        cases hopened : (if (sights (.create file data rest)).answer.ok then
            (sights (.create file data rest)).disk.create file else none) with
        | none => exact ih.head ⟨_, _, by rw [creatVcudaServer, hopened]⟩
        | some opened =>
            have hwrite : GoesOn cgroupV2 event sights (.write opened.1 data rest)
                (.dirName rest) := ⟨_, _, rfl⟩
            exact (ih.head hwrite).head ⟨_, _, by rw [creatVcudaServer, hopened]⟩
      have htotals : ∀ dir containerName, ReachesReleased cgroupV2 event sights
          (.totals dir containerName rest) .markDone := fun dir containerName =>
        (hcreate _ _).head ⟨_, _, rfl⟩
      have hcontName : ∀ dir, ReachesReleased cgroupV2 event sights
          (.contName uid dir rest) .markDone := fun dir => (htotals dir _).head ⟨_, _, rfl⟩
      have hmkdir : ∀ dir, ReachesReleased cgroupV2 event sights
          (.mkdir uid dir rest) .markDone := fun dir => (hcontName dir).head ⟨_, _, rfl⟩
      exact (hmkdir _).head ⟨_, _, rfl⟩

/-- From the statuses on, a call returns exactly when every container that it records runs under
Docker, and when it records one, it returns from the visit on. -/
theorem returned_record_iff (statuses : Json) {rest : Prop}
    (hvisited : ∀ mu, Released mu → (Completes (handlerStep cgroupV2 event sights) Returned
      ⟨.visited, mu, false⟩ ↔ rest)) (hmu : Released mu) :
    Completes (handlerStep cgroupV2 event sights) Returned
        ⟨.record (some statuses), mu, false⟩ ↔
      (∀ status ∈ Gjson.forEach (some statuses), Recorded status → DockerID status) ∧
        ((∃ status ∈ Gjson.forEach (some statuses), Recorded status) → rest) := by
  have hexists : (∃ status ∈ Gjson.forEach (some statuses), Recorded status) ↔
      recordedPairs (Gjson.forEach (some statuses)) ≠ some [] := by
    rw [Ne, recorded_pairs_eq_nil_iff]
    simp
  rw [hexists, ← recorded_pairs_isSome_iff]
  cases hpairs : recordedPairs (Gjson.forEach (some statuses)) with
  | none =>
      refine iff_of_false (not_returned_panic ?_) (by simp)
      simp [creatVcudaServer, record_containers_eq, hpairs]
  | some pairs =>
      cases pairs with
      | nil =>
          have hended : GoesOn cgroupV2 event sights (.record (some statuses)) .finished :=
            ⟨_, _, by rw [creatVcudaServer, record_containers_eq, hpairs]; rfl⟩
          rw [returned_next_iff hended]
          exact iff_of_true (returned_finished (released_step hmu _)) (by simp)
      | cons pair others =>
          have hlist : GoesOn cgroupV2 event sights (.record (some statuses)) .list :=
            ⟨_, _, by rw [creatVcudaServer, record_containers_eq, hpairs]; rfl⟩
          have hdone : ReachesReleased cgroupV2 event sights .list .markDone :=
            (dir_name_reaches _).head ⟨_, _, rfl⟩
          obtain ⟨after, hafter, hreaches⟩ := hdone.head hlist mu hmu
          have hmark : GoesOn cgroupV2 event sights .markDone .visited := ⟨_, _, rfl⟩
          rw [completes_iff_of_reaches hreaches, returned_next_iff hmark,
            hvisited _ (released_step hafter _)]
          simp

/-- A call returns exactly when nothing in its event, in what it finds and in what it is answered
makes it panic. -/
theorem returned_entry_iff (event : Json) (sights : HandlerPoint → Sight) :
    Completes (handlerStep cgroupV2 event sights) Returned (.start .entry) ↔
      NoPanic event sights := by
  unfold Frame.start
  by_cases haccepted : accepted event = true
  · by_cases hserves : Serves (sights .entry).vm event
    · have hentry : GoesOn cgroupV2 event sights .entry (.await 0 (containerStatuses event)) :=
        ⟨_, _, by rw [creatVcudaServer, haccepted]; exact if_pos hserves⟩
      have hwait : ∀ tries statuses,
          handlerStep cgroupV2 event sights (.start (.await tries statuses)) =
            some (.start (awaitNext (sights (.await tries statuses)).answer tries statuses)) :=
        fun tries statuses =>
          handler_step_next ⟨_, _, creat_vcuda_server_await cgroupV2 _ _ event _ tries statuses⟩
      rw [returned_next_iff hentry]
      show Completes _ _ (Frame.start _) ↔ _
      rcases await_reaches event (fun point => (sights point).answer) hwait with
        ⟨k, statuses, hfound, hreaches⟩ | ⟨hnever, hreaches⟩
      · rw [completes_iff_of_reaches hreaches, Frame.start,
          returned_record_iff statuses (fun mu hmu => returned_visited_iff hmu) released_nil]
        constructor
        · intro h
          obtain ⟨hdocker, hrest⟩ := h
          refine ⟨fun _ _ other later hother => hfound.unique hother ▸ hdocker,
            fun copyPod h => ?_⟩
          obtain ⟨other, later, hother, hrecorded⟩ := h.records hserves
          obtain rfl := hfound.unique hother
          exact hrest hrecorded h.unvisited h.made copyPod h.answered
        · intro h
          exact ⟨h.docker haccepted hserves k statuses hfound,
            fun hrecorded hunvisited hmade copyPod hanswered => h.annotated copyPod
              ⟨haccepted, fun _ => ⟨k, statuses, hfound, hrecorded⟩, hunvisited, hmade, hanswered⟩⟩
      · rw [completes_iff_of_reaches hreaches]
        refine iff_of_true (returned_finished trivial)
          ⟨fun _ _ k statuses hfound => (hnever k statuses hfound).elim, fun copyPod h => ?_⟩
        obtain ⟨k, statuses, hfound, -⟩ := h.records hserves
        exact (hnever k statuses hfound).elim
    · have hentry : GoesOn cgroupV2 event sights .entry .visited :=
        ⟨_, _, by rw [creatVcudaServer, haccepted]; exact if_neg hserves⟩
      rw [returned_next_iff hentry, returned_visited_iff (released_step released_nil _)]
      constructor
      · intro hrest
        exact ⟨fun _ h => (hserves h).elim,
          fun copyPod h => hrest h.unvisited h.made copyPod h.answered⟩
      · intro h hunvisited hmade copyPod hanswered
        exact h.annotated copyPod
          ⟨haccepted, fun h => (hserves h).elim, hunvisited, hmade, hanswered⟩
  · have hentry : GoesOn cgroupV2 event sights .entry .finished :=
      ⟨_, _, if_pos (by simp [haccepted])⟩
    rw [returned_next_iff hentry]
    exact iff_of_true (returned_finished trivial)
      ⟨fun h => (haccepted h).elim, fun _ h => (haccepted h.accepted).elim⟩

end Calls

/-! ## The handlers of a run -/

/-- The wait has not looked at more than a hundred documents. -/
def HandlerPoint.Within : HandlerPoint → Prop
  | .await tries _ => tries ≤ 100
  | _ => True

/-- A rank that every step of a handler lowers: how far its code has come, and how much of a loop is
left. -/
def HandlerPoint.rank : HandlerPoint → ℕ ×ₗ ℕ
  | .entry => toLex (12, 0)
  | .await tries _ => toLex (11, 100 - tries)
  | .record _ => toLex (10, 0)
  | .list => toLex (9, 0)
  | .dirName contUidList => toLex (8, 6 * contUidList.length)
  | .mkdir _ _ rest => toLex (8, 6 * rest.length + 5)
  | .contName _ _ rest => toLex (8, 6 * rest.length + 4)
  | .totals _ _ rest => toLex (8, 6 * rest.length + 3)
  | .create _ _ rest => toLex (8, 6 * rest.length + 2)
  | .write _ _ rest => toLex (8, 6 * rest.length + 1)
  | .markDone => toLex (7, 0)
  | .visited => toLex (6, 0)
  | .mark => toLex (5, 0)
  | .podDir => toLex (4, 0)
  | .requests => toLex (3, 0)
  | .getPod => toLex (2, 0)
  | .annotate _ => toLex (1, 0)
  | .finished => toLex (0, 0)

/-- The rank of a frame, which a panic lowers too. -/
def Frame.rank (frame : Frame) : (ℕ ×ₗ ℕ) ×ₗ ℕ :=
  toLex (frame.point.rank, if frame.panicked then 0 else 1)

section Ranks

variable [Gjson] {cgroupV2 : Bool} {event : Json}

/-- Going on lowers the rank. -/
theorem rank_lt_of_next {vm next : VirtualManager} {disk after : ConfigDisk} {answer : Answer}
    {point following : HandlerPoint} (hwithin : point.Within)
    (h : creatVcudaServer cgroupV2 vm disk event answer point = .next next after following) :
    following.Within ∧ following.rank < point.rank := by
  cases point with
  | await tries statuses =>
      rw [creat_vcuda_server_await] at h
      cases h
      have hwithin : tries ≤ 100 := hwithin
      by_cases htries : tries = 100
      · rw [awaitNext, if_pos htries]
        exact ⟨trivial, by simp [HandlerPoint.rank, Prod.Lex.toLex_lt_toLex]⟩
      cases statuses with
      | some statuses =>
          rw [awaitNext, if_neg htries]
          exact ⟨trivial, by simp [HandlerPoint.rank, Prod.Lex.toLex_lt_toLex]⟩
      | none =>
          cases hpod : answer.pod with
          | none =>
              rw [awaitNext, if_neg htries, hpod]
              exact ⟨trivial, by simp [HandlerPoint.rank, Prod.Lex.toLex_lt_toLex]⟩
          | some reply =>
              rw [awaitNext, if_neg htries, hpod]
              have hlt : 100 - (tries + 1) < 100 - tries := by omega
              exact ⟨show tries + 1 ≤ 100 by omega, Prod.Lex.toLex_lt_toLex.mpr (.inr ⟨rfl, hlt⟩)⟩
  | _ =>
      cases moves_of_next h <;>
        simp [HandlerPoint.Within, HandlerPoint.rank, Prod.Lex.toLex_lt_toLex] <;> omega

/-- Every step of a handler lowers its rank. -/
theorem rank_lt_of_handler_step {sights : HandlerPoint → Sight} {frame next : Frame}
    (hwithin : frame.point.Within) (h : handlerStep cgroupV2 event sights frame = some next) :
    next.point.Within ∧ next.rank < frame.rank := by
  unfold handlerStep at h
  split at h
  · cases h
  · rename_i hrunning
    split at h <;> cases h
    · exact ⟨hwithin, by simp [Frame.rank, Prod.Lex.toLex_lt_toLex, hrunning]⟩
    · rename_i hnext
      obtain ⟨hnextWithin, hlt⟩ := rank_lt_of_next hwithin hnext
      exact ⟨hnextWithin, Prod.Lex.toLex_lt_toLex.mpr (.inl hlt)⟩
    · rename_i hupdate
      obtain ⟨copyPod, hpoint⟩ := annotate_of_update hupdate
      have hlt : HandlerPoint.finished.rank < frame.point.rank := by
        simp [hpoint, HandlerPoint.rank, Prod.Lex.toLex_lt_toLex]
      exact ⟨trivial, Prod.Lex.toLex_lt_toLex.mpr (.inl hlt)⟩

/-- A handler stops when it has panicked or finished. -/
theorem stopped_of_none {sights : HandlerPoint → Sight} {frame : Frame}
    (h : handlerStep cgroupV2 event sights frame = none) :
    frame.panicked = true ∨ frame.point = .finished := by
  unfold handlerStep at h
  split at h
  · rename_i hpanicked
    exact .inl hpanicked
  · split at h
    · rename_i hstuck
      exact .inr (finished_of_stuck hstuck)
    · cases h
    · cases h
    · cases h

/-- Every call ends, whatever it finds: it panics or comes to its last point. -/
theorem calls_end (cgroupV2 : Bool) (event : Json) (sights : HandlerPoint → Sight) :
    Completes (handlerStep cgroupV2 event sights)
      (fun frame => frame.panicked = true ∨ frame.point = .finished) (.start .entry) := by
  have hends : Completes (handlerStep cgroupV2 event sights) (fun frame => frame.point.Within)
      (.start .entry) :=
    completes_of_rank Frame.rank (fun _ _ => rank_lt_of_handler_step) trivial
  exact hends.stop.mono fun frame h => stopped_of_none h.2

/-- A handler does not come back to a point, so what it would find there later does not matter. -/
theorem reaches_update {sights : HandlerPoint → Sight} {frame final : Frame} {left : HandlerPoint}
    (sight : Sight) (h : Reaches (handlerStep cgroupV2 event sights) frame final)
    (hwithin : frame.point.Within) (hrank : frame.point.rank < left.rank) :
    Reaches (handlerStep cgroupV2 event
      (fun point => if point.rank < left.rank then sights point else sight)) frame final := by
  induction h using Relation.ReflTransGen.head_induction_on with
  | refl => exact .refl
  | head hstep _ ih =>
      obtain ⟨hnext, hlt⟩ := rank_lt_of_handler_step hwithin hstep
      have hle := (Prod.Lex.toLex_lt_toLex.mp hlt).elim le_of_lt fun h => h.1.le
      refine (ih hnext (hle.trans_lt hrank)).head ?_
      simpa [handlerStep, hrank] using hstep

end Ranks

section Runs

variable [Gjson] {cgroupV2 : Bool} {state next final : State} {i : Nat} {event : Json}
  {point : HandlerPoint}

/-- A process that has crashed does nothing. -/
theorem exec_crashed {actions : List Action} (hrestart : .restart ∉ actions)
    (hcrashed : state.crashed = true) (hrun : exec (step cgroupV2) state actions = some final) :
    final = state := by
  cases actions with
  | nil => exact (Option.some.inj hrun).symm
  | cons action rest =>
      obtain ⟨next, hstep, -⟩ := exec_cons_eq_some.mp hrun
      cases action with
      | restart => exact absurd (List.mem_cons_self ..) hrestart
      | _ => simp [step, hcrashed] at hstep

/-- The steps of others leave a handler where it is. -/
theorem handler_of_other {action : Action} {handler : Handler}
    (hstep : step cgroupV2 state action = some next) (hrestart : action ≠ .restart)
    (hother : ∀ answer, action ≠ .handler i answer) (h : state.handlers[i]? = some handler) :
    next.handlers[i]? = some handler := by
  cases effect_of_step hstep with
  | restart => exact absurd rfl hrestart
  | run podMgr run spawn _ hnext =>
      obtain ⟨hlt, -⟩ := List.getElem?_eq_some_iff.mp h
      subst hnext
      cases spawn with
      | none => exact h
      | some spawn =>
          cases spawn with
          | creatVcudaServer pod => exact (List.getElem?_append_left hlt).trans h
          | deletePodPath pod => exact h
  | handler j answer _ _ _ _ _ _ hnext | updated j answer _ _ _ _ _ hnext =>
      have hne : j ≠ i := fun hji => hother answer (hji ▸ rfl)
      subst hnext
      exact (List.getElem?_set_ne hne).trans h
  | modified _ hnext | deleted _ hnext | runPanic hnext | handlerPanic _ _ _ _ _ hnext
  | deleter _ _ _ hnext =>
      subst hnext
      exact h

/-- In the state, a handler is where a call from the point has come; when the call has panicked, the
process has crashed. -/
def State.InCall (cgroupV2 : Bool) (event : Json) (final : State) (i : Nat) (point : HandlerPoint)
    (mu : List MuOp) : Prop :=
  ∃ sights frame, Reaches (handlerStep cgroupV2 event sights) ⟨point, mu, false⟩ frame ∧
    final.handlers[i]? = some ⟨event, frame.point⟩ ∧
    (frame.panicked = true → final.crashed = true)

/-- One more step in front of a call. -/
theorem in_call_head {following : HandlerPoint} {mu mu' : List MuOp} (sight : Sight)
    (h : final.InCall cgroupV2 event i following mu') (hwithin : following.Within)
    (hlt : following.rank < point.rank)
    (hstep : ∀ sights, sights point = sight →
      handlerStep cgroupV2 event sights ⟨point, mu, false⟩ = some ⟨following, mu', false⟩) :
    final.InCall cgroupV2 event i point mu := by
  obtain ⟨sights, frame, hreaches, hframe⟩ := h
  refine ⟨_, frame, (reaches_update sight hreaches hwithin hlt).head (hstep _ ?_), hframe⟩
  exact if_neg (lt_irrefl _)

/-- Whatever the others do in a run of the machine, each of its handlers takes the steps of a call,
which finds the maps and the disk as they are in the run. -/
theorem in_call_of_exec {actions : List Action} (hrestart : .restart ∉ actions)
    (hhandler : state.handlers[i]? = some ⟨event, point⟩) (hwithin : point.Within)
    (hrun : exec (step cgroupV2) state actions = some final) (mu : List MuOp) :
    final.InCall cgroupV2 event i point mu := by
  induction actions generalizing state point mu with
  | nil =>
      obtain rfl := Option.some.inj hrun
      exact ⟨fun _ => ⟨state.vm, state.disk, ⟨true, none⟩⟩, _, .refl, hhandler, nofun⟩
  | cons action rest ih =>
      obtain ⟨next, hstep, hrest⟩ := exec_cons_eq_some.mp hrun
      have hlater : .restart ∉ rest := fun hmem => hrestart (List.mem_cons_of_mem _ hmem)
      by_cases hmine : ∃ answer, action = .handler i answer
      · obtain ⟨answer, rfl⟩ := hmine
        obtain ⟨hlt, -⟩ := List.getElem?_eq_some_iff.mp hhandler
        let sight : Sight := ⟨state.vm, state.disk, answer⟩
        simp only [step, hhandler, Option.bind_some] at hstep
        split at hstep
        · cases hstep
        · unfold State.handlerNext at hstep
          split at hstep <;> cases hstep
          · rename_i hpanic
            obtain rfl := exec_crashed hlater rfl hrest
            refine ⟨fun _ => sight, ⟨point, mu ++ point.enter, true⟩, .single ?_, hhandler,
              fun _ => rfl⟩
            simp [handlerStep, sight, hpanic]
          · rename_i vm disk following hnext
            obtain ⟨hnextWithin, hrank⟩ := rank_lt_of_next hwithin hnext
            have hset : (state.handlers.set i ⟨event, following⟩)[i]? = some ⟨event, following⟩ :=
              List.getElem?_set_self hlt
            exact in_call_head sight (ih hlater hset hnextWithin hrest _) hnextWithin hrank
              fun sights hsight => handler_step_next ⟨vm, disk, by rw [hsight]; exact hnext⟩
          · rename_i pod hupdate
            obtain ⟨copyPod, rfl⟩ := annotate_of_update hupdate
            have hset : (state.handlers.set i ⟨event, .finished⟩)[i]? = some ⟨event, .finished⟩ :=
              List.getElem?_set_self hlt
            have hfinished : HandlerPoint.finished.Within := trivial
            have hrank : HandlerPoint.finished.rank < (HandlerPoint.annotate copyPod).rank := by
              simp [HandlerPoint.rank, Prod.Lex.toLex_lt_toLex]
            exact in_call_head sight (ih hlater hset hfinished hrest mu) hfinished hrank
              fun sights hsight => by simp [handlerStep, hsight, sight, hupdate]
      · have hnext := handler_of_other hstep (fun h => hrestart (h ▸ List.mem_cons_self ..))
          (fun answer h => hmine ⟨answer, h⟩) hhandler
        exact ih hlater hnext hwithin hrest mu

end Runs

/-- `creatVcudaServer` comes to its end for an event, and it and `deletePodPath` release the lock,
exactly when every container that the call records runs under Docker and the pod into which it
writes an annotation has some. -/
theorem calls_return_iff [Gjson] (cgroupV2 : Bool) (event : Json)
    (sights : HandlerPoint → Sight) :
    (Completes (handlerStep cgroupV2 event sights) Returned (.start .entry) ∧
        Released (deletePodPathMu event)) ↔
      NoPanic event sights := by
  rw [returned_entry_iff, and_iff_left_iff_imp]
  intro _
  unfold deletePodPathMu
  split <;> trivial

/-- A pod whose container runs under containerd. -/
def containerdPod : Pod :=
  { runningPod with containerStatuses := [⟨"main", "containerd://c1"⟩] }

/-- The pod has lost its annotations when it is read back. -/
def bareAnswer : Answer := ⟨true, some { runningPod with annotations := none }⟩

/-- The first container of a pod that does not run under Docker ends the process; so does a pod
that has no annotations when it is read back. -/
theorem calls_return_counterexample :
    letI := Gjson.reader
    (¬ ∀ (cgroupV2 : Bool) (event : Json) (sights : HandlerPoint → Sight),
      Completes (handlerStep cgroupV2 event sights) Returned (.start .entry) ∧
        Released (deletePodPathMu event)) ∧
      (exec (step false) State.initial (handledEvent containerdPod 3 0 3)).map State.crashed =
        some true ∧
      (exec (step false) State.initial (.modified scheduledPod.toJson ::
        (List.replicate 3 .run ++ List.replicate 7 (.handler 0 bareAnswer)))).map State.crashed =
        some true := by
  let reader := Gjson.reader
  refine ⟨fun h => ?_, by decide +kernel, by decide +kernel⟩
  let sights : HandlerPoint → Sight := fun _ =>
    ⟨newVirtualManager, .empty ResourceData, answered⟩
  obtain ⟨hreturns, -⟩ := h false containerdPod.toJson sights
  have hrun : (exec (fun frame (_ : Unit) => handlerStep false containerdPod.toJson sights frame)
      (.start .entry) (List.replicate 3 ())).map (fun frame => (frame.panicked, frame.mu)) =
      some (true, [.lock]) := by decide +kernel
  obtain ⟨final, hfinal, hends⟩ := Option.map_eq_some_iff.mp hrun
  have hpanicked : final.panicked = true := congrArg Prod.fst hends
  have hstop : handlerStep false containerdPod.toJson sights final = none := by
    simp [handlerStep, hpanicked]
  rw [completes_iff_of_reaches (reaches_of_exec hfinal), completes_iff_of_stop hstop] at hreturns
  rw [hreturns.running] at hpanicked
  cases hpanicked

end UniShare.ResourceManager
