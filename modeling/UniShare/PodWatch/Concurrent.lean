import UniShare.PodWatch.Overcommit

/-!
# Concurrent calls

Any number of `getGpuResource` calls whose three API steps interleave: list and decide, fetch the
chosen GPU, write it back. The API server refuses a write whose resource version is stale, so no
charge is lost; the decision itself rests on the listing, which may be out of date by then.
`concurrent_calls_replay` is what holds of every interleaving, and when the calls are serializable;
`serializable_counterexample` shows that they need not be.
-/

namespace UniShare.PodWatch

open Lib DeviceInfo

/-- The amounts that a call requests. -/
structure Demand where
  core : Int64
  memory : Int64
  deriving DecidableEq, Repr

/-- Where a call is: before its listing, between the listing and the fetch, between the fetch and
the write, or at its end. -/
inductive CallPoint where
  | idle
  | listed (gpu : GpuResource)
  | fetched (gpu : GpuResource) (data : GPU)
  | returned (outcome : Outcome String)
  deriving DecidableEq, Repr

/-- The API server's resources and the calls. -/
structure Calls (ι : Type) where
  store : GpuStore
  point : ι → CallPoint

/-- No call has started. -/
def Calls.initial (ι : Type) (store : GpuStore) : Calls ι := ⟨store, fun _ => .idle⟩

/-- An API step of a call; `answered` is false when the request does not reach the server. -/
inductive ApiStep (ι : Type) where
  | list (call : ι) (answered : Bool)
  | get (call : ι) (answered : Bool)
  | update (call : ι) (answered : Bool)
  deriving DecidableEq, Repr

/-- A successful write: the call, and the listed entry of the GPU that it charged. -/
structure Commit (ι : Type) where
  call : ι
  gpu : GpuResource

/-- A commit with the numbers of the steps in which its call listed the GPUs and wrote one back. -/
structure TimedCommit (ι : Type) extends Commit ι where
  listed : Nat
  wrote : Nat

variable {ι : Type}

/-- One call moves. -/
def Calls.setPoint [DecidableEq ι] (state : Calls ι) (call : ι) (point : CallPoint) : Calls ι :=
  { state with point := Function.update state.point call point }

section Steps

variable [Gjson]

/-- One API step, `none` when the call is not at that point. -/
def apiStep [DecidableEq ι] (demands : ι → Demand) (state : Calls ι) : ApiStep ι → Option (Calls ι)
  | .list call answered =>
      match state.point call with
      | .idle =>
          if answered then
            match selectGpu (demands call).core (demands call).memory
                (gpudataList (gpuListJson state.store.items)) with
            | none => some (state.setPoint call (.returned (.error "no gpu match")))
            | some gpu => some (state.setPoint call (.listed gpu))
          else some (state.setPoint call (.returned (.exit "get gpu resource error")))
      | _ => none
  | .get call answered =>
      match state.point call with
      | .listed gpu =>
          some (state.setPoint call (.fetched gpu
            ((if answered then state.store.get gpu.crdName else none).getD default)))
      | _ => none
  | .update call answered =>
      match state.point call with
      | .fetched gpu data =>
          match (if answered then
              state.store.update (charge (demands call).core (demands call).memory data)
            else none) with
          | none => some (state.setPoint call (.returned (.error "update crd failed")))
          | some updated =>
              some { state.setPoint call (.returned (.ok gpu.uuid)) with store := updated }
      | _ => none

/-- The calls in this order, each one run to its end before the next. -/
def sequential (demands : ι → Demand) : GpuStore → List ι → List (Outcome String) × GpuStore
  | store, [] => ([], store)
  | store, call :: rest =>
      let result := getGpuResource .answered store (demands call).core (demands call).memory
      let following := sequential demands result.2 rest
      (result.1 :: following.1, following.2)

/-- The used amounts of every GPU. -/
def usedAmounts (store : GpuStore) : List (String × R) :=
  store.items.map fun gpu => (gpu.name, gpu.spec.used)

/-- Some sequential execution of just the calls that succeeded returns what they returned and
leaves the same used amounts. -/
def Serializable (demands : ι → Demand) (store : GpuStore) (state : Calls ι) : Prop :=
  ∃ order : List ι, order.Nodup ∧
    (∀ call, call ∈ order ↔ ∃ uuid, state.point call = .returned (.ok uuid)) ∧
    (sequential demands store order).1.map CallPoint.returned = order.map state.point ∧
    usedAmounts (sequential demands store order).2 = usedAmounts state.store

/-- The charges of the commits, applied in order. -/
def replay (demands : ι → Demand) (store : GpuStore) (commits : List (Commit ι)) : GpuStore :=
  commits.foldl (fun state commit => state.charged commit.gpu.crdName (demands commit.call).core
    (demands commit.call).memory) store

/-- The call's rule picks this entry from a listing of the store. -/
def ChosenFrom (demands : ι → Demand) (store : GpuStore) (call : ι) (gpu : GpuResource) : Prop :=
  ∃ listed, Selected (demands call).core (demands call).memory store.items listed ∧
    entryOf listed = gpu

/-- The commits that were written in the first `n` steps. -/
def writtenBefore (commits : List (TimedCommit ι)) (n : Nat) : List (Commit ι) :=
  (commits.filter fun commit => commit.wrote < n).map TimedCommit.toCommit

/-- The call's rule picks this entry from a listing of the store after the first `n` actions. -/
def ChosenAt [DecidableEq ι] (demands : ι → Demand) (store : GpuStore)
    (actions : List (ApiStep ι)) (n : Nat) (call : ι) (gpu : GpuResource) : Prop :=
  ∃ found, exec (apiStep demands) (Calls.initial ι store) (actions.take n) = some found ∧
    ChosenFrom demands found.store call gpu

/-- The run is explained by these commits. They are exactly the calls that succeeded, with the UUIDs
that these returned, in the order of their writes. Each listed the GPUs and later wrote one back, in
the steps with these numbers, and its GPU is the choice of the rule on the state in which it listed
them. At any time the store is what their charges so far make of it, one after another. -/
structure Explained [DecidableEq ι] (demands : ι → Demand) (store : GpuStore)
    (actions : List (ApiStep ι)) (commits : List (TimedCommit ι)) (state : Calls ι) : Prop where
  nodup : (commits.map fun commit => commit.call).Nodup
  succeeded : ∀ call uuid, state.point call = .returned (.ok uuid) ↔
    ∃ commit ∈ commits, commit.call = call ∧ commit.gpu.uuid = uuid
  ordered : commits.Pairwise fun first second => first.wrote < second.wrote
  lists : ∀ commit ∈ commits, actions[commit.listed]? = some (.list commit.call true)
  writes : ∀ commit ∈ commits, actions[commit.wrote]? = some (.update commit.call true)
  listed_lt : ∀ commit ∈ commits, commit.listed < commit.wrote
  chosen : ∀ commit ∈ commits,
    ChosenAt demands store actions commit.listed commit.call commit.gpu
  stores : ∀ n found,
    exec (apiStep demands) (Calls.initial ι store) (actions.take n) = some found →
      found.store = replay demands store (writtenBefore commits n)

/-- The call's rule picks this GPU from a listing of the store, whatever the amounts used of it are
by then. -/
def Picks (demands : ι → Demand) (store : GpuStore) (call : ι) (gpu : GpuResource) : Prop :=
  ∃ fresh, ChosenFrom demands store call fresh ∧ fresh.crdName = gpu.crdName ∧
    fresh.uuid = gpu.uuid

/-- The rule still picks every commit's GPU in the state just before its write. -/
def FreshChoices [DecidableEq ι] (demands : ι → Demand) (store : GpuStore)
    (actions : List (ApiStep ι)) (commits : List (TimedCommit ι)) : Prop :=
  ∀ commit ∈ commits, ∃ found,
    exec (apiStep demands) (Calls.initial ι store) (actions.take commit.wrote) = some found ∧
      Picks demands found.store commit.call commit.gpu

/-- Nothing is written between the listing and the write of any commit. -/
def Separate (commits : List (TimedCommit ι)) : Prop :=
  ∀ commit ∈ commits, ∀ other ∈ commits, other.wrote < commit.wrote → other.wrote < commit.listed

/-- A call whose three steps nothing interrupts is `getGpuResource`. -/
theorem apiStep_alone [DecidableEq ι] (demands : ι → Demand) (calls : GpuCalls)
    (state : Calls ι) (call : ι) (hidle : state.point call = .idle) :
    ∃ actions, exec (apiStep demands) state actions =
      some { state.setPoint call (.returned (getGpuResource calls state.store
          (demands call).core (demands call).memory).1) with
        store := (getGpuResource calls state.store
          (demands call).core (demands call).memory).2 } := by
  obtain ⟨list, get, update⟩ := calls
  cases list with
  | false => exact ⟨[.list call false], by simp [exec, apiStep, hidle, getGpuResource]; rfl⟩
  | true =>
      cases hselect : selectGpu (demands call).core (demands call).memory
          (gpudataList (gpuListJson state.store.items)) with
      | none =>
          exact ⟨[.list call true], by simp [exec, apiStep, hidle, getGpuResource, hselect]; rfl⟩
      | some gpu =>
          refine ⟨[.list call true, .get call get, .update call update], ?_⟩
          simp only [exec, apiStep, hidle, hselect, if_true, Option.bind_some, Calls.setPoint,
            Function.update_self, Function.update_idem, getGpuResource]
          split <;> simp_all

/-! ## The invariant -/

/-- A fetched object is empty, or it is at most as recent as the stored object of that name, and
equal to it when their resource versions agree. -/
def FetchedFrom (store : GpuStore) (gpu : GpuResource) (data : GPU) : Prop :=
  data.name = "" ∨ data.name = gpu.crdName ∧ ∃ current ∈ store.items, current.name = data.name ∧
    data.resourceVersion ≤ current.resourceVersion ∧
    (data.resourceVersion = current.resourceVersion → data = current)

/-- The call listed the GPUs in the step of this number, and this is its choice. -/
def ListedAt [DecidableEq ι] (demands : ι → Demand) (store : GpuStore) (past : List (ApiStep ι))
    (call : ι) (gpu : GpuResource) (n : Nat) : Prop :=
  past[n]? = some (.list call true) ∧ ChosenAt demands store past n call gpu

/-- What a call knows at its point. -/
def PointInv [DecidableEq ι] (demands : ι → Demand) (store : GpuStore) (past : List (ApiStep ι))
    (current : GpuStore) (commits : List (TimedCommit ι)) (call : ι) : CallPoint → Prop
  | .idle => True
  | .listed gpu => ∃ n, ListedAt demands store past call gpu n
  | .fetched gpu data =>
      (∃ n, ListedAt demands store past call gpu n) ∧ FetchedFrom current gpu data
  | .returned outcome =>
      ∀ uuid, outcome = .ok uuid → ∃ commit ∈ commits, commit.call = call

/-- A commit made its choice in a step, and wrote in a later one. -/
structure CommitInv [DecidableEq ι] (demands : ι → Demand) (store : GpuStore)
    (past : List (ApiStep ι)) (commit : TimedCommit ι) : Prop where
  listed : ListedAt demands store past commit.call commit.gpu commit.listed
  listed_lt : commit.listed < commit.wrote
  wrote : past[commit.wrote]? = some (.update commit.call true)

/-- The invariant of concurrent calls. -/
structure CallsInv [DecidableEq ι] (demands : ι → Demand) (store : GpuStore)
    (commits : List (TimedCommit ι)) (past : List (ApiStep ι)) (state : Calls ι) : Prop where
  nodup : (commits.map fun commit => commit.call).Nodup
  returned : ∀ commit ∈ commits, state.point commit.call = .returned (.ok commit.gpu.uuid)
  points : ∀ call, PointInv demands store past state.store commits call (state.point call)
  ordered : commits.Pairwise fun first second => first.wrote < second.wrote
  steps : ∀ commit ∈ commits, CommitInv demands store past commit
  stores : ∀ n found,
    exec (apiStep demands) (Calls.initial ι store) (past.take n) = some found →
      found.store = replay demands store (writtenBefore commits n)

omit [Gjson] in
/-- A charge leaves a fetched object as recent as it was, or makes it stale. -/
theorem fetched_from_charged {store : GpuStore} {gpu : GpuResource} {data : GPU}
    (h : FetchedFrom store gpu data) (name : String) (podCoreReq podMemReq : Int64) :
    FetchedFrom (store.charged name podCoreReq podMemReq) gpu data := by
  rcases h with hempty | ⟨hname, current, hcurrent, hsame, hle, heq⟩
  · exact .inl hempty
  · refine .inr ⟨hname, chargeNamed name podCoreReq podMemReq current,
      List.mem_map.mpr ⟨current, hcurrent, rfl⟩, by simpa using hsame, ?_⟩
    by_cases hcharged : current.name = name
    · -- the charged object is strictly newer than the fetched one
      simp only [chargeNamed, if_pos hcharged]
      exact ⟨by omega, fun habsurd => by omega⟩
    · simp only [chargeNamed, if_neg hcharged]
      exact ⟨hle, heq⟩

omit [Gjson] in
/-- A fetch returns the stored object or nothing. -/
theorem fetched_from_get (store : GpuStore) (gpu : GpuResource) (answered : Bool) :
    FetchedFrom store gpu
      ((if answered then store.get gpu.crdName else none).getD default) := by
  cases hget : (if answered then store.get gpu.crdName else none) with
  | none => exact .inl rfl
  | some data =>
      cases answered with
      | false => cases hget
      | true =>
          obtain ⟨hmem, hname⟩ := GpuStore.get_eq_some hget
          exact .inr ⟨hname, data, hmem, rfl, le_refl _, fun _ => rfl⟩

omit [Gjson] in
/-- The server accepts a charged copy exactly when the copy is what it stores. -/
theorem update_fetched_iff {store : GpuStore} {gpu : GpuResource} {data : GPU}
    (h : FetchedFrom store gpu data) (podCoreReq podMemReq : Int64) :
    (store.update (charge podCoreReq podMemReq data)).isSome ↔ data ∈ store.items := by
  constructor
  · intro haccepted
    unfold GpuStore.update at haccepted
    split at haccepted
    · rename_i hany
      obtain ⟨other, hother, hmatch⟩ := List.any_eq_true.mp hany
      obtain ⟨hsame, hversion⟩ := of_decide_eq_true hmatch
      rcases h with hempty | ⟨hname, current, hcurrent, hcurrentName, -, heq⟩
      · exact absurd (hsame.trans hempty) (store.named other hother)
      · obtain rfl := store.eq_of_name hother hcurrent (hsame.trans hcurrentName.symm)
        rwa [heq hversion.symm]
    · cases haccepted
  · intro hdata
    rw [store.update_charge hdata]
    rfl

omit [Gjson] in
/-- A write that the server accepts charges the stored object of the chosen name. -/
theorem update_of_fetched {store updated : GpuStore} {gpu : GpuResource} {data : GPU}
    (h : FetchedFrom store gpu data) {podCoreReq podMemReq : Int64}
    (hupdate : store.update (charge podCoreReq podMemReq data) = some updated) :
    updated = store.charged gpu.crdName podCoreReq podMemReq := by
  have hdata := (update_fetched_iff h podCoreReq podMemReq).mp (by rw [hupdate]; rfl)
  obtain ⟨hname, -⟩ := h.resolve_left (store.named data hdata)
  rw [store.update_charge hdata, Option.some.injEq] at hupdate
  rw [← hupdate, hname]

/-- What was chosen in an earlier step stays so. -/
theorem listed_at_concat [DecidableEq ι] {demands : ι → Demand} {store : GpuStore}
    {past : List (ApiStep ι)} {call : ι} {gpu : GpuResource} {n : Nat}
    (h : ListedAt demands store past call gpu n) (action : ApiStep ι) :
    ListedAt demands store (past ++ [action]) call gpu n := by
  obtain ⟨hlist, found, hfound, hchosen⟩ := h
  obtain ⟨hlt, -⟩ := List.getElem?_eq_some_iff.mp hlist
  refine ⟨by rwa [List.getElem?_append_left hlt], found, ?_, hchosen⟩
  rwa [exec_take_concat hlt.le]

/-- So do the steps of a commit. -/
theorem commit_inv_concat [DecidableEq ι] {demands : ι → Demand} {store : GpuStore}
    {past : List (ApiStep ι)} {commit : TimedCommit ι} (h : CommitInv demands store past commit)
    (action : ApiStep ι) : CommitInv demands store (past ++ [action]) commit := by
  obtain ⟨hlt, -⟩ := List.getElem?_eq_some_iff.mp h.wrote
  exact ⟨listed_at_concat h.listed action, h.listed_lt, by
    rw [List.getElem?_append_left hlt]
    exact h.wrote⟩

/-- A commit has been written by now. -/
theorem CommitInv.wrote_lt [DecidableEq ι] {demands : ι → Demand} {store : GpuStore}
    {past : List (ApiStep ι)} {commit : TimedCommit ι} (h : CommitInv demands store past commit) :
    commit.wrote < past.length := by
  obtain ⟨hlt, -⟩ := List.getElem?_eq_some_iff.mp h.wrote
  exact hlt

/-- What a call knows survives a step of another call, with a charge or without. -/
theorem point_inv_concat [DecidableEq ι] {demands : ι → Demand} {store current next : GpuStore}
    {past : List (ApiStep ι)} {commits more : List (TimedCommit ι)} {call : ι} {point : CallPoint}
    (h : PointInv demands store past current commits call point) (action : ApiStep ι)
    (hnext : next = current ∨ ∃ name core memory, next = current.charged name core memory) :
    PointInv demands store (past ++ [action]) next (commits ++ more) call point := by
  cases point with
  | idle => trivial
  | listed gpu =>
      obtain ⟨n, hn⟩ := h
      exact ⟨n, listed_at_concat hn action⟩
  | fetched gpu data =>
      obtain ⟨⟨n, hn⟩, hfetched⟩ := h
      refine ⟨⟨n, listed_at_concat hn action⟩, ?_⟩
      rcases hnext with rfl | ⟨name, core, memory, rfl⟩
      · exact hfetched
      · exact fetched_from_charged hfetched name core memory
  | returned outcome =>
      intro uuid houtcome
      obtain ⟨other, hother, hcall⟩ := h uuid houtcome
      exact ⟨other, List.mem_append_left more hother, hcall⟩

section Move

variable [DecidableEq ι] {demands : ι → Demand} {store : GpuStore}
  {commits : List (TimedCommit ι)} {past : List (ApiStep ι)} {state : Calls ι}

omit [Gjson] [DecidableEq ι] in
/-- Replaying two lists of commits. -/
theorem replay_append (first second : List (Commit ι)) :
    replay demands store (first ++ second) = replay demands (replay demands store first) second :=
  List.foldl_append

omit [Gjson] [DecidableEq ι] in
/-- Commits that have all been written by then. -/
theorem written_before_all {n : Nat} (h : ∀ commit ∈ commits, commit.wrote < n) :
    writtenBefore commits n = commits.map TimedCommit.toCommit := by
  unfold writtenBefore
  rw [List.filter_eq_self.mpr fun commit hmem => decide_eq_true (h commit hmem)]

omit [Gjson] [DecidableEq ι] in
/-- Commits of which none has been written by then. -/
theorem written_before_none {n : Nat} (h : ∀ commit ∈ commits, n ≤ commit.wrote) :
    writtenBefore commits n = [] := by
  unfold writtenBefore
  rw [List.filter_eq_nil_iff.mpr fun commit hmem => by
    have hle := h commit hmem
    simpa using hle]
  rfl

omit [Gjson] [DecidableEq ι] in
theorem written_before_append (more : List (TimedCommit ι)) (n : Nat) :
    writtenBefore (commits ++ more) n = writtenBefore commits n ++ writtenBefore more n := by
  unfold writtenBefore
  rw [List.filter_append, List.map_append]

/-- The store is what the charges of all commits make of the first one. -/
theorem CallsInv.store_eq (h : CallsInv demands store commits past state)
    (hpast : exec (apiStep demands) (Calls.initial ι store) past = some state) :
    state.store = replay demands store (commits.map TimedCommit.toCommit) := by
  rw [← written_before_all fun commit hmem => (h.steps commit hmem).wrote_lt]
  exact h.stores past.length state (by rwa [List.take_length])

/-- The stores after a step whose commits, if any, are written in it. -/
theorem stores_concat (h : CallsInv demands store commits past state)
    (hpast : exec (apiStep demands) (Calls.initial ι store) past = some state)
    {action : ApiStep ι} {next : Calls ι} (hstep : apiStep demands state action = some next)
    {more : List (TimedCommit ι)} (hmore : ∀ commit ∈ more, commit.wrote = past.length)
    (hstore : next.store = replay demands state.store (more.map TimedCommit.toCommit)) (n : Nat)
    (found : Calls ι)
    (hfound : exec (apiStep demands) (Calls.initial ι store) ((past ++ [action]).take n) =
      some found) : found.store = replay demands store (writtenBefore (commits ++ more) n) := by
  rw [written_before_append]
  by_cases hn : n ≤ past.length
  · rw [exec_take_concat hn] at hfound
    have hnone : writtenBefore more n = [] :=
      written_before_none fun commit hmem => (hmore commit hmem).symm ▸ hn
    rw [hnone, List.append_nil]
    exact h.stores n found hfound
  · rw [List.take_of_length_le (by simp; omega), exec_concat_eq_some] at hfound
    obtain ⟨middle, hmiddle, hlast⟩ := hfound
    obtain rfl := Option.some.inj (hmiddle.symm.trans hpast)
    obtain rfl := Option.some.inj (hlast.symm.trans hstep)
    have hwritten : ∀ commit ∈ commits, commit.wrote < n := fun commit hmem => by
      have hlt := (h.steps commit hmem).wrote_lt
      omega
    have hnew : ∀ commit ∈ more, commit.wrote < n := fun commit hmem => by
      have heq := hmore commit hmem
      omega
    rw [written_before_all hwritten, written_before_all hnew, replay_append, ← h.store_eq hpast,
      hstore]

/-- A call that has not returned has committed nothing. -/
theorem CallsInv.not_committed (h : CallsInv demands store commits past state) {call : ι}
    (hpoint : ∀ outcome, state.point call ≠ .returned outcome) :
    ∀ commit ∈ commits, commit.call ≠ call := by
  rintro commit hmem rfl
  exact hpoint _ (h.returned commit hmem)

/-- A call that moves without a write keeps the invariant. -/
theorem calls_inv_move (h : CallsInv demands store commits past state)
    (hpast : exec (apiStep demands) (Calls.initial ι store) past = some state) {call : ι}
    {point : CallPoint} {action : ApiStep ι}
    (hstep : apiStep demands state action = some (state.setPoint call point))
    (hpoint : ∀ outcome, state.point call ≠ .returned outcome)
    (hnext : PointInv demands store (past ++ [action]) state.store commits call point) :
    CallsInv demands store commits (past ++ [action]) (state.setPoint call point) := by
  refine ⟨h.nodup, fun commit hmem => ?_, fun other => ?_, h.ordered,
    fun commit hmem => commit_inv_concat (h.steps commit hmem) action, ?_⟩
  · simpa [Calls.setPoint, Function.update_of_ne (h.not_committed hpoint commit hmem)] using
      h.returned commit hmem
  · by_cases heq : other = call
    · subst heq
      simpa [Calls.setPoint] using hnext
    · have hother : PointInv demands store (past ++ [action]) state.store (commits ++ []) other
          (state.point other) := point_inv_concat (h.points other) action (.inl rfl)
      simpa [Calls.setPoint, Function.update_of_ne heq] using hother
  · have hnone : ∀ commit ∈ ([] : List (TimedCommit ι)), commit.wrote = past.length := nofun
    simpa using stores_concat h hpast hstep hnone rfl

/-- A write adds the call's commit. -/
theorem calls_inv_commit (h : CallsInv demands store commits past state)
    (hpast : exec (apiStep demands) (Calls.initial ι store) past = some state) {call : ι}
    {gpu : GpuResource} {data : GPU} {next : Calls ι}
    (hstep : apiStep demands state (.update call true) = some next)
    (hpoint : state.point call = .fetched gpu data)
    (hnext : next = { state.setPoint call (.returned (.ok gpu.uuid)) with
      store := state.store.charged gpu.crdName (demands call).core (demands call).memory }) :
    ∃ later, CallsInv demands store later (past ++ [.update call true]) next := by
  have hfresh : ∀ commit ∈ commits, commit.call ≠ call :=
    h.not_committed (by simp [hpoint])
  have hknown := h.points call
  rw [hpoint] at hknown
  obtain ⟨n, hlisted⟩ := hknown.1
  obtain ⟨hlt, -⟩ := List.getElem?_eq_some_iff.mp hlisted.1
  let commit : TimedCommit ι := ⟨⟨call, gpu⟩, n, past.length⟩
  refine ⟨commits ++ [commit], ?_, fun other hmem => ?_, fun other => ?_, ?_, fun other hmem => ?_,
    stores_concat h hpast hstep (by simp [commit]) (by rw [hnext]; rfl)⟩
  · rw [List.map_append, List.nodup_append]
    refine ⟨h.nodup, by simp, fun first hfirst last hlast => ?_⟩
    obtain ⟨earlier, hmem, rfl⟩ := List.mem_map.mp hfirst
    obtain rfl : last = call := by simpa using hlast
    exact hfresh earlier hmem
  · subst hnext
    rcases List.mem_append.mp hmem with hmem | hmem
    · simpa [Calls.setPoint, Function.update_of_ne (hfresh other hmem)] using h.returned other hmem
    · obtain rfl := List.mem_singleton.mp hmem
      simp [Calls.setPoint, commit]
  · subst hnext
    by_cases heq : other = call
    · subst heq
      simp only [Calls.setPoint, Function.update_self]
      exact fun _ _ => ⟨commit, by simp, rfl⟩
    · simp only [Calls.setPoint, Function.update_of_ne heq]
      exact point_inv_concat (h.points other) _ (.inr ⟨_, _, _, rfl⟩)
  · refine List.pairwise_append.mpr ⟨h.ordered, List.pairwise_singleton _ _, ?_⟩
    intro earlier hmem last hlast
    obtain rfl := List.mem_singleton.mp hlast
    exact (h.steps earlier hmem).wrote_lt
  · rcases List.mem_append.mp hmem with hmem | hmem
    · exact commit_inv_concat (h.steps other hmem) _
    · obtain rfl := List.mem_singleton.mp hmem
      exact ⟨listed_at_concat hlisted _, hlt, by simp [commit]⟩

/-- Every API step keeps the invariant, for the commits so far or for one more. -/
theorem calls_inv_step {next : Calls ι} {action : ApiStep ι}
    (hpast : exec (apiStep demands) (Calls.initial ι store) past = some state)
    (h : CallsInv demands store commits past state)
    (hstep : apiStep demands state action = some next) :
    ∃ later, CallsInv demands store later (past ++ [action]) next := by
  have horiginal := hstep
  cases action with
  | list call answered =>
      simp only [apiStep] at hstep
      split at hstep
      · rename_i hidle
        have hpoint : ∀ outcome, state.point call ≠ .returned outcome := by simp [hidle]
        split at hstep
        · rename_i hanswered
          split at hstep <;> cases hstep
          · exact ⟨commits, calls_inv_move h hpast horiginal hpoint nofun⟩
          · rename_i gpu hselect
            refine ⟨commits, calls_inv_move h hpast horiginal hpoint ⟨past.length, ?_, state, ?_,
              select_gpu_eq_some_iff.mp hselect⟩⟩
            · simp [hanswered]
            · rwa [exec_take_concat (le_refl _), List.take_length]
        · cases hstep
          exact ⟨commits, calls_inv_move h hpast horiginal hpoint nofun⟩
      · cases hstep
  | get call answered =>
      simp only [apiStep] at hstep
      split at hstep <;> cases hstep
      rename_i gpu hlisted
      have hknown := h.points call
      rw [hlisted] at hknown
      obtain ⟨n, hn⟩ := hknown
      exact ⟨commits, calls_inv_move h hpast horiginal (by simp [hlisted])
        ⟨⟨n, listed_at_concat hn _⟩, fetched_from_get state.store gpu answered⟩⟩
  | update call answered =>
      simp only [apiStep] at hstep
      split at hstep
      · rename_i gpu data hfetched
        have hknown := h.points call
        rw [hfetched] at hknown
        split at hstep
        · cases hstep
          exact ⟨commits, calls_inv_move h hpast horiginal (by simp [hfetched]) nofun⟩
        · rename_i updated hupdate
          cases answered with
          | false => cases hupdate
          | true =>
              obtain rfl := update_of_fetched hknown.2 hupdate
              exact calls_inv_commit h hpast horiginal hfetched (Option.some.inj hstep).symm
      · cases hstep

end Move

/-! ## What every interleaving keeps -/

/-- The invariant explains the run. -/
theorem CallsInv.explained [DecidableEq ι] {demands : ι → Demand} {store : GpuStore}
    {commits : List (TimedCommit ι)} {actions : List (ApiStep ι)} {state : Calls ι}
    (h : CallsInv demands store commits actions state) :
    Explained demands store actions commits state := by
  refine ⟨h.nodup, fun call uuid => ⟨fun hpoint => ?_, ?_⟩, h.ordered,
    fun commit hmem => (h.steps commit hmem).listed.1, fun commit hmem => (h.steps commit hmem).wrote,
    fun commit hmem => (h.steps commit hmem).listed_lt,
    fun commit hmem => (h.steps commit hmem).listed.2, h.stores⟩
  · have hknown := h.points call
    rw [hpoint] at hknown
    obtain ⟨commit, hmem, rfl⟩ := hknown uuid rfl
    have hsame := (h.returned commit hmem).symm.trans hpoint
    simp only [CallPoint.returned.injEq, Outcome.ok.injEq] at hsame
    exact ⟨commit, hmem, rfl, hsame⟩
  · rintro ⟨commit, hmem, rfl, rfl⟩
    exact h.returned commit hmem

/-- A call that runs alone on a store charges the GPU that its rule chooses there. -/
theorem get_gpu_resource_chosen {demands : ι → Demand} {store : GpuStore} {call : ι}
    {gpu : GpuResource} (h : ChosenFrom demands store call gpu) :
    getGpuResource .answered store (demands call).core (demands call).memory =
      (.ok gpu.uuid,
        store.charged gpu.crdName (demands call).core (demands call).memory) := by
  obtain ⟨listed, hlisted, rfl⟩ := h
  rcases get_gpu_resource_answered store (demands call).core (demands call).memory with
    ⟨chosen, hchosen, hcall⟩ | ⟨hnone, -⟩
  · obtain rfl := hlisted.unique hchosen
    simpa [entryOf, gpuresource_toJson] using hcall
  · obtain ⟨other, hother, hok⟩ := hlisted.passes
    exact absurd hok (hnone other hother)

/-- The rule picks every commit's GPU from the store that the commits before it have left. -/
def ChoicesInOrder (demands : ι → Demand) (store : GpuStore) (commits : List (Commit ι)) : Prop :=
  ∀ earlier commit later, commits = earlier ++ commit :: later →
    Picks demands (replay demands store earlier) commit.call commit.gpu

/-- Such commits are a sequential execution. -/
theorem sequential_of_choices {demands : ι → Demand} {store : GpuStore} {commits : List (Commit ι)}
    (h : ChoicesInOrder demands store commits) :
    sequential demands store (commits.map Commit.call) =
      (commits.map fun commit => .ok commit.gpu.uuid, replay demands store commits) := by
  induction commits generalizing store with
  | nil => rfl
  | cons commit rest ih =>
      obtain ⟨fresh, hchosen, hname, huuid⟩ := h [] commit rest rfl
      have hfirst := get_gpu_resource_chosen hchosen
      have hrest : ChoicesInOrder demands (store.charged commit.gpu.crdName
          (demands commit.call).core (demands commit.call).memory) rest :=
        fun earlier other later heq => h (commit :: earlier) other later (by rw [heq]; rfl)
      simp only [replay, List.foldl_nil, hname, huuid] at hfirst
      simp only [List.map_cons, sequential, hfirst, ih hrest]
      rfl

section Explained

variable [DecidableEq ι] {demands : ι → Demand} {store : GpuStore} {actions : List (ApiStep ι)}
  {commits : List (TimedCommit ι)} {state : Calls ι}

/-- In the order of the writes, fresh choices are those on the store that is left before them. -/
theorem choices_of_fresh (h : Explained demands store actions commits state)
    (hfresh : FreshChoices demands store actions commits) :
    ChoicesInOrder demands store (commits.map TimedCommit.toCommit) := by
  intro earlier commit later heq
  obtain ⟨before, rest, rfl, rfl, hrest⟩ := List.map_eq_append_iff.mp heq
  obtain ⟨timed, after, rfl, rfl, rfl⟩ := List.map_eq_cons_iff.mp hrest
  obtain ⟨found, hfound, hpicks⟩ := hfresh timed (by simp)
  obtain ⟨-, hafter, hbefore⟩ := List.pairwise_append.mp h.ordered
  -- the commits before it, and no others, have been written by then
  have hwritten : writtenBefore (before ++ timed :: after) timed.wrote =
      before.map TimedCommit.toCommit := by
    have hlater : ∀ other ∈ timed :: after, timed.wrote ≤ other.wrote := by
      intro other hmem
      rcases List.mem_cons.mp hmem with rfl | hmem
      · exact le_refl _
      · exact (List.rel_of_pairwise_cons hafter hmem).le
    rw [written_before_append, written_before_none hlater, List.append_nil]
    exact written_before_all fun other hmem => hbefore other hmem timed (by simp)
  rw [← hwritten, ← h.stores timed.wrote found hfound]
  exact hpicks

/-- Fresh choices make the calls serializable, in the order of their writes. -/
theorem serializable_of_fresh
    (hrun : exec (apiStep demands) (Calls.initial ι store) actions = some state)
    (hinv : CallsInv demands store commits actions state)
    (hfresh : FreshChoices demands store actions commits) : Serializable demands store state := by
  have hsequential := sequential_of_choices (choices_of_fresh hinv.explained hfresh)
  rw [List.map_map] at hsequential
  refine ⟨commits.map fun commit => commit.call, hinv.nodup, fun call => ?_, ?_, ?_⟩
  · constructor
    · intro hmem
      obtain ⟨commit, hcommit, rfl⟩ := List.mem_map.mp hmem
      exact ⟨_, hinv.returned commit hcommit⟩
    · rintro ⟨uuid, hpoint⟩
      obtain ⟨commit, hcommit, rfl, -⟩ := (hinv.explained.succeeded call uuid).mp hpoint
      exact List.mem_map.mpr ⟨commit, hcommit, rfl⟩
  · change (sequential demands store (commits.map (Commit.call ∘ TimedCommit.toCommit))).1.map _ = _
    rw [hsequential, List.map_map, List.map_map, List.map_map]
    exact List.map_congr_left fun commit hcommit => (hinv.returned commit hcommit).symm
  · change usedAmounts
      (sequential demands store (commits.map (Commit.call ∘ TimedCommit.toCommit))).2 = _
    rw [hsequential, hinv.store_eq hrun]

/-- Choices are fresh when nothing is written between a call's listing and its write. -/
theorem fresh_of_separate
    (hrun : exec (apiStep demands) (Calls.initial ι store) actions = some state)
    (h : Explained demands store actions commits state) (hseparate : Separate commits) :
    FreshChoices demands store actions commits := by
  intro commit hmem
  obtain ⟨listed, hlisted, hchosen⟩ := h.chosen commit hmem
  obtain ⟨found, hfound⟩ := exec_take hrun commit.wrote
  have hsame : writtenBefore commits commit.listed = writtenBefore commits commit.wrote := by
    unfold writtenBefore
    rw [List.filter_congr fun other hother => ?_]
    have hlt := h.listed_lt commit hmem
    rw [decide_eq_decide]
    exact ⟨fun hbefore => hbefore.trans hlt, hseparate commit hmem other hother⟩
  refine ⟨found, hfound, commit.gpu, ?_, rfl, rfl⟩
  rw [h.stores _ _ hfound, ← hsame, ← h.stores _ _ hlisted]
  exact hchosen

/-- Choices are fresh when the rule picks one GPU all the time. -/
theorem fresh_of_constant (h : Explained demands store actions commits state) {name uuid : String}
    (hpicks : ∀ n < actions.length, ∀ call, ∃ found fresh,
      exec (apiStep demands) (Calls.initial ι store) (actions.take n) = some found ∧
        ChosenFrom demands found.store call fresh ∧ fresh.crdName = name ∧ fresh.uuid = uuid) :
    FreshChoices demands store actions commits := by
  intro commit hmem
  obtain ⟨hwrote, -⟩ := List.getElem?_eq_some_iff.mp (h.writes commit hmem)
  obtain ⟨found, fresh, hfound, hchosen, hname, huuid⟩ := hpicks commit.wrote hwrote commit.call
  obtain ⟨listed, first, hlisted, hfirst, rfl, rfl⟩ :=
    hpicks commit.listed ((h.listed_lt commit hmem).trans hwrote) commit.call
  obtain ⟨same, hsame, hgpu⟩ := h.chosen commit hmem
  obtain rfl := Option.some.inj (hsame.symm.trans hlisted)
  have heq : first = commit.gpu := Option.some.inj
    ((select_gpu_eq_some_iff.mpr hfirst).symm.trans (select_gpu_eq_some_iff.mpr hgpu))
  exact ⟨found, hfound, fresh, hchosen, heq ▸ hname, heq ▸ huuid⟩

end Explained

/-- Every run of any number of calls, whose steps interleave in any way, is explained by the commits
of the calls that succeed. When the choice of each of these is still the one of the rule just before
its write, the calls are serializable; so they are when nothing is written between the listing and
the write of any of them. -/
theorem concurrent_calls_replay [DecidableEq ι] (demands : ι → Demand) (store : GpuStore)
    (actions : List (ApiStep ι)) (state : Calls ι)
    (hrun : exec (apiStep demands) (Calls.initial ι store) actions = some state) :
    ∃ commits, Explained demands store actions commits state ∧
      (FreshChoices demands store actions commits → Serializable demands store state) ∧
      (Separate commits → Serializable demands store state) := by
  have hinitial : ∃ commits, CallsInv demands store commits [] (Calls.initial ι store) := by
    refine ⟨[], List.nodup_nil, nofun, fun _ => trivial, List.Pairwise.nil, nofun, ?_⟩
    intro n found hfound
    rw [List.take_nil] at hfound
    obtain rfl := Option.some.inj hfound
    rfl
  have hpreserve : ∀ past current action next,
      exec (apiStep demands) (Calls.initial ι store) past = some current →
      (∃ commits, CallsInv demands store commits past current) →
      apiStep demands current action = some next →
      ∃ commits, CallsInv demands store commits (past ++ [action]) next := by
    rintro past current action next hpast ⟨commits, h⟩ hstep
    exact calls_inv_step hpast h hstep
  obtain ⟨commits, hinv⟩ := exec_invariant_past hpreserve hinitial hrun
  exact ⟨commits, hinv.explained, serializable_of_fresh hrun hinv, fun hseparate =>
    serializable_of_fresh hrun hinv (fresh_of_separate hrun hinv.explained hseparate)⟩

end Steps

/-- Two requests of 60 cores and 60 memory blocks. -/
def twoDemands (_ : Bool) : Demand := ⟨60, 60⟩

/-- Two calls that both list before either writes. -/
def bothListed : List (ApiStep Bool) :=
  [.list false true, .list true true, .get false true, .update false true, .get true true,
    .update true true]

/-- Both calls succeed. -/
theorem both_listed_succeed :
    letI := Gjson.reader
    ∃ state, exec (apiStep twoDemands) (Calls.initial Bool freshStore) bothListed = some state ∧
      ∀ call, state.point call = .returned (.ok "GPU-0") := by
  let reader := Gjson.reader
  have hpoints : (exec (apiStep twoDemands) (Calls.initial Bool freshStore) bothListed).map
      (fun state => (state.point false, state.point true)) =
        some (.returned (.ok "GPU-0"), .returned (.ok "GPU-0")) := by decide +kernel
  obtain ⟨state, hrun, hstate⟩ := Option.map_eq_some_iff.mp hpoints
  exact ⟨state, hrun, Bool.rec (congrArg Prod.fst hstate) (congrArg Prod.snd hstate)⟩

/-- Two requests for which one card has room. -/
def smallDemands (_ : Bool) : Demand := ⟨30, 10⟩

/-- Two calls one after the other. -/
def oneByOne : List (ApiStep Bool) :=
  [.list false true, .get false true, .update false true, .list true true, .get true true,
    .update true true]

/-- In both runs the calls of small requests succeed, and the rule picks the card all the time. -/
theorem small_demands_succeed :
    letI := Gjson.reader
    ∀ actions ∈ [bothListed, oneByOne],
      (exec (apiStep smallDemands) (Calls.initial Bool freshStore) actions).map
          (fun state => (state.point false, state.point true)) =
        some (.returned (.ok "GPU-0"), .returned (.ok "GPU-0")) ∧
      ∀ n < 6, ((exec (apiStep smallDemands) (Calls.initial Bool freshStore)
          (actions.take n)).bind fun found =>
            selectGpu 30 10 (gpudataList (gpuListJson found.store.items))).map
          (fun gpu => (gpu.crdName, gpu.uuid)) = some ("n1-gpu-0", "GPU-0") := by
  decide +kernel

/-- When each of two calls one after the other lists and writes. -/
theorem one_by_one_steps : ∀ n < 6, ∀ call,
    (oneByOne[n]? = some (.list call true) → n = if call then 3 else 0) ∧
      (oneByOne[n]? = some (.update call true) → n = if call then 5 else 2) := by
  decide +kernel

/-- Both runs leave both calls with the card's UUID. -/
theorem small_demands_run :
    letI := Gjson.reader
    ∀ actions ∈ [bothListed, oneByOne], ∃ state,
      exec (apiStep smallDemands) (Calls.initial Bool freshStore) actions = some state ∧
        ∀ call, state.point call = .returned (.ok "GPU-0") := by
  let reader := Gjson.reader
  intro actions hmem
  obtain ⟨hpoints, -⟩ := small_demands_succeed actions hmem
  obtain ⟨state, hrun, hstate⟩ := Option.map_eq_some_iff.mp hpoints
  exact ⟨state, hrun, Bool.rec (congrArg Prod.fst hstate) (congrArg Prod.snd hstate)⟩

/-- Two calls that both list before either writes are serializable when one card has room for both
requests, and so are two calls one after the other. -/
theorem concurrent_calls_replay_two :
    letI := Gjson.reader
    (∃ state, exec (apiStep smallDemands) (Calls.initial Bool freshStore) bothListed = some state ∧
        (∀ call, state.point call = .returned (.ok "GPU-0")) ∧
        Serializable smallDemands freshStore state) ∧
      ∃ state, exec (apiStep smallDemands) (Calls.initial Bool freshStore) oneByOne = some state ∧
        (∀ call, state.point call = .returned (.ok "GPU-0")) ∧
        Serializable smallDemands freshStore state := by
  let reader := Gjson.reader
  constructor
  · obtain ⟨state, hrun, hpoints⟩ := small_demands_run bothListed (by simp)
    obtain ⟨commits, hexplained, hfresh, -⟩ :=
      concurrent_calls_replay smallDemands freshStore bothListed state hrun
    have hpicks : ∀ n < 6, ∀ call, ∃ found fresh,
        exec (apiStep smallDemands) (Calls.initial Bool freshStore) (bothListed.take n) =
          some found ∧ ChosenFrom smallDemands found.store call fresh ∧
          fresh.crdName = "n1-gpu-0" ∧ fresh.uuid = "GPU-0" := by
      intro n hn call
      obtain ⟨-, hpicked⟩ := small_demands_succeed bothListed (by simp)
      obtain ⟨fresh, hpick, hnames⟩ := Option.map_eq_some_iff.mp (hpicked n hn)
      obtain ⟨found, hfound, hselect⟩ := Option.bind_eq_some_iff.mp hpick
      exact ⟨found, fresh, hfound, select_gpu_eq_some_iff.mp hselect, congrArg Prod.fst hnames,
        congrArg Prod.snd hnames⟩
    exact ⟨state, hrun, hpoints, hfresh (fresh_of_constant hexplained hpicks)⟩
  · obtain ⟨state, hrun, hpoints⟩ := small_demands_run oneByOne (by simp)
    obtain ⟨commits, hexplained, -, hseparate⟩ :=
      concurrent_calls_replay smallDemands freshStore oneByOne state hrun
    refine ⟨state, hrun, hpoints, hseparate fun commit hcommit other hother hlt => ?_⟩
    have hposition : ∀ {n : Nat} {action : ApiStep Bool}, oneByOne[n]? = some action → ∀ call,
        (oneByOne[n]? = some (.list call true) → n = if call then 3 else 0) ∧
          (oneByOne[n]? = some (.update call true) → n = if call then 5 else 2) :=
      fun h => one_by_one_steps _ (List.getElem?_eq_some_iff.mp h).1
    have hlists := hexplained.lists commit hcommit
    have hwrites := hexplained.writes commit hcommit
    have hearlier := hexplained.writes other hother
    have hlisted := (hposition hlists commit.call).1 hlists
    have hwrote := (hposition hwrites commit.call).2 hwrites
    have hother := (hposition hearlier other.call).2 hearlier
    split at hwrote <;> split at hother <;> simp_all

/-- Both calls succeed and leave 120 of 100 cores used, while the second of two such calls always
fails when they run one after the other. -/
theorem serializable_counterexample :
    letI := Gjson.reader
    ¬ ∀ (demands : Bool → Demand) store actions state,
        exec (apiStep demands) (Calls.initial Bool store) actions = some state →
          Serializable demands store state := by
  intro h
  let reader := Gjson.reader
  obtain ⟨state, hrun, hpoints⟩ := both_listed_succeed
  obtain ⟨order, -, hmem, hresults, -⟩ := h twoDemands freshStore bothListed state hrun
  have hfalse : false ∈ order := (hmem false).mpr ⟨_, hpoints false⟩
  have htrue : true ∈ order := (hmem true).mpr ⟨_, hpoints true⟩
  have hsecond : (getGpuResource .answered (getGpuResource .answered freshStore 60 60).2 60 60).1 =
      .error "no gpu match" := by decide +kernel
  match order with
  | [] => cases hfalse
  | [call] =>
      obtain rfl := List.mem_singleton.mp hfalse
      exact absurd (List.mem_singleton.mp htrue) (by decide)
  | first :: second :: rest =>
      simp only [sequential, twoDemands, hsecond, hpoints, List.map_cons,
        List.cons.injEq] at hresults
      exact absurd hresults.2.1 (by decide)

end UniShare.PodWatch
