import UniShare.Cluster

/-!
# Refused charges

The API server refuses the write of a `GetGpuResource` call whose copy of the card is stale, and the
call then ends with an error: it does not try again. `charge_accepted_iff` says when this happens in
a cluster: exactly when another call has charged the same card since this one has fetched it. What
happens to other cards, and daemons that register or start again, never refuse a charge.
-/

namespace UniShare.Cluster

open Lib DeviceInfo PodWatch

variable {ν ι : Type}

/-! ## A copy and its resource -/

/-- A copy that is stale stays stale when another resource is created. -/
theorem mem_of_mem_create {store : GpuStore} {gpu : GpuResource} {data other : GPU}
    (h : FetchedFrom store gpu data) (hnamed : data.name ≠ "")
    (hdata : data ∈ (createGpu store other).items) : data ∈ store.items := by
  obtain ⟨-, current, hcurrent, hsame, -⟩ := h.resolve_left hnamed
  have hkept := (createGpu store other).eq_of_name hdata (mem_create_gpu hcurrent other) hsame.symm
  rwa [hkept]

/-- A copy that is stale stays stale when a resource is charged. -/
theorem mem_of_mem_charged {store : GpuStore} {gpu : GpuResource} {data : GPU}
    (h : FetchedFrom store gpu data) (hnamed : data.name ≠ "") {name : String}
    {core memory : Int64} (hdata : data ∈ (store.charged name core memory).items) :
    data ∈ store.items := by
  obtain ⟨-, current, hcurrent, hsame, hrecent, -⟩ := h.resolve_left hnamed
  obtain ⟨old, hold, rfl⟩ := List.mem_map.mp hdata
  rw [chargeNamed_name] at hsame
  obtain rfl := store.eq_of_name hold hcurrent hsame.symm
  unfold chargeNamed at hrecent ⊢
  split
  · rename_i hname
    -- the charged resource is more recent than the one that the copy is at most as recent as
    rw [if_pos hname] at hrecent
    exact absurd hrecent (Nat.not_succ_le_self _)
  · exact hold

/-! ## The steps between the fetch and the write -/

/-- In this step a call charges the resource of this name: its write reaches the server, which
accepts it. -/
def Charges (demands : ι → Demand) (state : State ν ι) (action : Action ν ι) (name : String) :
    Prop :=
  ∃ call gpu data, action = .api (.update call true) ∧
    state.calls.point call = .fetched gpu data ∧ gpu.crdName = name ∧
    (state.calls.store.update
      (charge (demands call).core (demands call).memory data)).isSome

/-- Only the write of a call is a charge. -/
theorem not_charges {demands : ι → Demand} {state : State ν ι} {action : Action ν ι}
    (haction : ∀ call, action ≠ .api (.update call true)) (name : String) :
    ¬ Charges demands state action name := by
  intro hcharges
  obtain ⟨call, -, -, hupdate, -⟩ := hcharges
  exact haction call hupdate

/-- The write of a call that has fetched a card is a charge of this card when the server accepts it.
-/
theorem charges_update_iff {demands : ι → Demand} {state : State ν ι} {call : ι} {answered : Bool}
    {gpu : GpuResource} {data : GPU} (hfetched : state.calls.point call = .fetched gpu data)
    (name : String) :
    Charges demands state (.api (.update call answered)) name ↔
      answered = true ∧ gpu.crdName = name ∧
        (state.calls.store.update
          (charge (demands call).core (demands call).memory data)).isSome := by
  constructor
  · intro hcharges
    obtain ⟨other, copied, copy, haction, hpoint, hname, haccepted⟩ := hcharges
    cases haction
    rw [hfetched] at hpoint
    cases hpoint
    exact ⟨rfl, hname, haccepted⟩
  · intro haccepted
    obtain ⟨rfl, hname, haccepted⟩ := haccepted
    exact ⟨call, gpu, data, rfl, hfetched, hname, haccepted⟩

/-- What a step does to the stored resources: nothing, a creation, or a charge by a call. -/
inductive StoreEffect (demands : ι → Demand) (state : State ν ι) (action : Action ν ι) :
    GpuStore → Prop where
  | same (hcharges : ∀ name, ¬ Charges demands state action name) :
      StoreEffect demands state action state.calls.store
  | created (gpu : GPU) (hcharges : ∀ name, ¬ Charges demands state action name) :
      StoreEffect demands state action (createGpu state.calls.store gpu)
  | charged (name : String) (core memory : Int64)
      (hcharges : ∀ other, Charges demands state action other ↔ other = name) :
      StoreEffect demands state action (state.calls.store.charged name core memory)

section Effects

variable {demands : ι → Demand} {state : State ν ι} {action : Action ν ι} {store : GpuStore}
  {gpu : GpuResource} {data : GPU}

/-- A copy stays at most as recent as the resource that it is a copy of. -/
theorem StoreEffect.fetched_from (h : StoreEffect demands state action store)
    (hfetched : FetchedFrom state.calls.store gpu data) : FetchedFrom store gpu data := by
  cases h with
  | same hcharges => exact hfetched
  | created other hcharges => exact fetched_from_created hfetched other
  | charged name core memory hcharges => exact fetched_from_charged hfetched name core memory

/-- A copy that is what the server stores stays so exactly in the steps that do not charge its
resource. -/
theorem StoreEffect.mem_iff (h : StoreEffect demands state action store)
    (hdata : data ∈ state.calls.store.items) :
    data ∈ store.items ↔ ¬ Charges demands state action data.name := by
  cases h with
  | same hcharges => exact iff_of_true hdata (hcharges data.name)
  | created other hcharges =>
      exact iff_of_true (mem_create_gpu hdata other) (hcharges data.name)
  | charged name core memory hcharges =>
      rw [mem_charged_iff hdata, hcharges]

/-- A copy that is not what the server stores never becomes so. -/
theorem StoreEffect.mem_of_mem (h : StoreEffect demands state action store)
    (hfetched : FetchedFrom state.calls.store gpu data) (hnamed : data.name ≠ "")
    (hdata : data ∈ store.items) : data ∈ state.calls.store.items := by
  cases h with
  | same hcharges => exact hdata
  | created other hcharges => exact mem_of_mem_create hfetched hnamed hdata
  | charged name core memory hcharges => exact mem_of_mem_charged hfetched hnamed hdata

end Effects

section Steps

variable [DecidableEq ν] [DecidableEq ι] [Gjson] {answers : CreateAnswers} {nodes : ν → Node}
  {demands : ι → Demand} {commits : List (Commit ι)} {state next : State ν ι} {action : Action ν ι}

/-- Every step has one of these effects. -/
theorem store_effect (h : Inv nodes demands commits state)
    (hstep : step answers nodes demands state action = some next) :
    StoreEffect demands state action next.calls.store := by
  cases action with
  | create node answered =>
      have hcharges : ∀ name, ¬ Charges demands state (.create node answered) name :=
        not_charges (by simp)
      simp only [step] at hstep
      split at hstep
      · cases answered with
        | false =>
            cases hstep
            exact .same hcharges
        | true =>
            simp only [if_true] at hstep
            split at hstep <;> cases hstep
            · exact .same hcharges
            · show StoreEffect _ _ _ (createResource _ _ _).2
              unfold createResource
              split
              · exact .same hcharges
              · exact .created _ hcharges
      · cases hstep
  | restart node =>
      cases hstep
      exact .same (not_charges (by simp))
  | api action =>
      obtain ⟨calls, hcalls, rfl⟩ := Option.map_eq_some_iff.mp hstep
      cases action with
      | list call answered =>
          have hcharges : ∀ name, ¬ Charges demands state (.api (.list call answered)) name :=
            not_charges (by simp)
          cases api_effect hcalls with
          | listed gpu hidle hselect => exact .same hcharges
          | failed caller outcome hrunning hfailed => exact .same hcharges
      | get call answered =>
          have hcharges : ∀ name, ¬ Charges demands state (.api (.get call answered)) name :=
            not_charges (by simp)
          cases api_effect hcalls with
          | fetched gpu hlisted => exact .same hcharges
          | failed caller outcome hrunning hfailed => exact .same hcharges
      | update call answered =>
          simp only [apiStep] at hcalls
          split at hcalls
          · rename_i gpu data hfetched
            have hknown := h.points call
            rw [hfetched] at hknown
            split at hcalls <;> cases hcalls
            · rename_i hrefused
              refine .same fun name hcharges => ?_
              obtain ⟨rfl, -, haccepted⟩ := (charges_update_iff hfetched name).mp hcharges
              rw [if_pos rfl] at hrefused
              rw [hrefused] at haccepted
              cases haccepted
            · rename_i updated hupdate
              cases answered with
              | false => cases hupdate
              | true =>
                  rw [if_pos rfl] at hupdate
                  obtain rfl := update_of_fetched hknown.2 hupdate
                  refine .charged _ _ _ fun name => ?_
                  rw [charges_update_iff hfetched, hupdate]
                  simp [eq_comm]
          · cases hcalls

/-- Only the steps of the calls move calls. -/
theorem points_of_step (hstep : step answers nodes demands state action = some next) :
    next.calls.point = state.calls.point ∨
      ∃ request, apiStep demands state.calls request = some next.calls := by
  cases action with
  | create node answered =>
      left
      simp only [step] at hstep
      split at hstep
      · cases answered with
        | false =>
            cases hstep
            rfl
        | true =>
            simp only [if_true] at hstep
            split at hstep <;> cases hstep <;> rfl
      · cases hstep
  | restart node =>
      cases hstep
      exact .inl rfl
  | api request =>
      obtain ⟨calls, hcalls, rfl⟩ := Option.map_eq_some_iff.mp hstep
      exact .inr ⟨request, hcalls⟩

/-- A call that has fetched a card keeps its copy until it returns, and does not move after that.
-/
theorem point_kept {call : ι} {gpu : GpuResource} {data : GPU}
    (h : state.calls.point call = .fetched gpu data ∨
      ∃ outcome, state.calls.point call = .returned outcome)
    (hstep : step answers nodes demands state action = some next) :
    next.calls.point call = .fetched gpu data ∨
      ∃ outcome, next.calls.point call = .returned outcome := by
  rcases points_of_step hstep with hsame | ⟨request, hcalls⟩
  · rwa [hsame]
  · have hother : ∀ other point, other ≠ call →
        (state.calls.setPoint other point).point call = state.calls.point call := by
      intro other point hother
      simp [Calls.setPoint, Function.update_of_ne hother.symm]
    generalize next.calls = calls at hcalls ⊢
    cases api_effect hcalls with
    | @listed other chosen hidle hselect =>
        have hne : other ≠ call := by
          rintro rfl
          simp [hidle] at h
        rwa [hother other _ hne]
    | @fetched other answered chosen hlisted =>
        have hne : other ≠ call := by
          rintro rfl
          simp [hlisted] at h
        rwa [hother other _ hne]
    | @charged other chosen copy updated hfetched hupdate =>
        show (state.calls.setPoint other _).point call = _ ∨
          ∃ outcome, (state.calls.setPoint other _).point call = _
        by_cases hne : other = call
        · subst hne
          exact .inr ⟨.ok chosen.uuid, by simp [Calls.setPoint]⟩
        · rwa [hother other _ hne]
    | failed other outcome hrunning hfailed =>
        by_cases hne : other = call
        · subst hne
          exact .inr ⟨outcome, by simp [Calls.setPoint]⟩
        · rwa [hother other _ hne]

/-- What an answered request for a stored card returns. -/
theorem fetched_of_get {call : ι} {gpu : GpuResource} (h : Inv nodes demands commits state)
    (hlisted : state.calls.point call = .listed gpu)
    (hget : step answers nodes demands state (.api (.get call true)) = some next) :
    ∃ data ∈ next.calls.store.items, data.name = gpu.crdName ∧
      next.calls.point call = .fetched gpu data := by
  have hcard := h.points call
  rw [hlisted] at hcard
  obtain ⟨node, i, hi, hname, -⟩ := hcard
  have hstored := (h.stored _ _).mpr ⟨node, i, hi, rfl, rfl⟩
  rw [← hname] at hstored
  obtain ⟨hdata, hsame⟩ := GpuStore.get_eq_some hstored
  simp only [step, apiStep, hlisted, if_true, hstored, Option.map_some, Option.some.injEq] at hget
  subst hget
  exact ⟨_, hdata, hsame, by simp [Calls.setPoint]⟩

/-- What a call returns whose write is answered. -/
theorem returned_of_update {call : ι} {gpu : GpuResource} {data : GPU}
    (hpoint : state.calls.point call = .fetched gpu data)
    (hfetched : FetchedFrom state.calls.store gpu data)
    (hupdate : step answers nodes demands state (.api (.update call true)) = some next) :
    (next.calls.point call = .returned (.ok gpu.uuid) ↔ data ∈ state.calls.store.items) ∧
      (next.calls.point call = .returned (.error "update crd failed") ↔
        data ∉ state.calls.store.items) := by
  rw [← update_fetched_iff hfetched (demands call).core (demands call).memory]
  simp only [step, apiStep, hpoint, if_true] at hupdate
  cases haccepted : state.calls.store.update
      (charge (demands call).core (demands call).memory data) with
  | none =>
      simp only [haccepted, Option.map_some, Option.some.injEq] at hupdate
      subst hupdate
      simp [Calls.setPoint]
  | some updated =>
      simp only [haccepted, Option.map_some, Option.some.injEq] at hupdate
      subst hupdate
      simp [Calls.setPoint]

end Steps

section Runs

variable [DecidableEq ν] [DecidableEq ι] (answers : CreateAnswers) {nodes : ν → Node}
  {demands : ι → Demand}

/-- A call has chosen a card, and its two requests for the card are answered. In every run of a
cluster with different hostnames, whatever the daemons and the other calls do before and between the
two requests, the write is accepted exactly when no call has charged this card in between; otherwise
the call ends with an error. -/
theorem charge_accepted_iff [Gjson]
    (hhost : Function.Injective fun node => (nodes node).hostname)
    (before between : List (Action ν ι)) (start fetched last final : State ν ι)
    (hbefore : exec (step answers nodes demands) (State.initial ν ι) before = some start)
    (call : ι) (gpu : GpuResource) (hlisted : start.calls.point call = .listed gpu)
    (hget : step answers nodes demands start (.api (.get call true)) = some fetched)
    (hbetween : exec (step answers nodes demands) fetched between = some last)
    (hupdate : step answers nodes demands last (.api (.update call true)) = some final) :
    (final.calls.point call = .returned (.ok gpu.uuid) ↔
        Along (step answers nodes demands)
          (fun state action => ¬ Charges demands state action gpu.crdName) fetched between) ∧
      (final.calls.point call = .returned (.error "update crd failed") ↔
        ¬ Along (step answers nodes demands)
          (fun state action => ¬ Charges demands state action gpu.crdName) fetched between) := by
  obtain ⟨commits, hstart⟩ := inv_run answers hhost ⟨[], inv_initial⟩ hbefore
  have hfetched := inv_step answers hhost hstart hget
  obtain ⟨data, hdata, hname, hpoint⟩ := fetched_of_get hstart hlisted hget
  have hfrom : FetchedFrom fetched.calls.store gpu data :=
    .inr ⟨hname, data, hdata, rfl, le_refl _, fun _ => rfl⟩
  have hnamed := fetched.calls.store.named data hdata
  -- the copy is as recent as the stored resource, or it is stale from some step on
  have hpreserve : ∀ state action next,
      ((∃ commits, Inv nodes demands commits state) ∧ FetchedFrom state.calls.store gpu data) →
      step answers nodes demands state action = some next →
      (∃ commits, Inv nodes demands commits next) ∧ FetchedFrom next.calls.store gpu data := by
    intro state action next hstate hstep
    obtain ⟨⟨commits, hinv⟩, hrecent⟩ := hstate
    exact ⟨inv_step answers hhost hinv hstep, (store_effect hinv hstep).fetched_from hrecent⟩
  have halong : Always (step answers nodes demands) (fun state => data ∈ state.calls.store.items)
      fetched between ↔ Along (step answers nodes demands)
        (fun state action => ¬ Charges demands state action data.name) fetched between := by
    refine always_iff_along hpreserve (fun state action next hstate hcurrent hstep => ?_) between
      ⟨hfetched, hfrom⟩ hdata
    obtain ⟨⟨commits, hinv⟩, -⟩ := hstate
    exact (store_effect hinv hstep).mem_iff hcurrent
  have hfinal : Always (step answers nodes demands) (fun state => data ∈ state.calls.store.items)
      fetched between ↔ data ∈ last.calls.store.items := by
    refine always_iff_final hpreserve (fun state action next hstate hstep hcurrent => ?_)
      ⟨hfetched, hfrom⟩ hbetween
    obtain ⟨⟨commits, hinv⟩, hrecent⟩ := hstate
    exact (store_effect hinv hstep).mem_of_mem hrecent hnamed hcurrent
  have hkept := exec_invariant (fun state action next h hstep => point_kept h hstep)
    (.inl hpoint) hbetween
  have hlast := exec_invariant hpreserve ⟨hfetched, hfrom⟩ hbetween
  have hstill : last.calls.point call = .fetched gpu data := by
    refine hkept.resolve_right fun hreturned => ?_
    obtain ⟨outcome, hreturned⟩ := hreturned
    simp [step, apiStep, hreturned] at hupdate
  rw [← hname, ← halong, hfinal]
  exact returned_of_update hstill hlast.2 hupdate

/-- Two calls choose the card of `b`, and the first fetches it. -/
def bothListed : List (Action Bool Bool) :=
  [.create true true, .api (.list false true), .api (.list true true), .api (.get false true)]

/-- After the second has fetched the card as well, the first one charges it, while the daemon of `b`
starts again. -/
def firstCharges : List (Action Bool Bool) := [.restart true, .api (.update false true)]

/-- The second call ends with an error, and some step has charged the card since its fetch. -/
theorem charge_accepted_iff_refused :
    letI := Gjson.reader
    ∃ start fetched last final,
      exec (step plainAnswers twoNodes fun _ => ⟨30, 10⟩) (State.initial Bool Bool) bothListed =
        some start ∧
      step plainAnswers twoNodes (fun _ => ⟨30, 10⟩) start (.api (.get true true)) = some fetched ∧
      exec (step plainAnswers twoNodes fun _ => ⟨30, 10⟩) fetched firstCharges = some last ∧
      step plainAnswers twoNodes (fun _ => ⟨30, 10⟩) last (.api (.update true true)) = some final ∧
      final.calls.point true = .returned (.error "update crd failed") ∧
      ¬ Along (step plainAnswers twoNodes fun _ => ⟨30, 10⟩)
        (fun state action => ¬ Charges (fun _ => ⟨30, 10⟩) state action "b-gpu-0") fetched
        firstCharges := by
  let reader := Gjson.reader
  have hchosen : (exec (step plainAnswers twoNodes fun _ => ⟨30, 10⟩) (State.initial Bool Bool)
      bothListed).map (fun start => start.calls.point true) =
        some (.listed ⟨"GPU-b0", 100, 64, 0, 0, "b-gpu-0"⟩) := by decide +kernel
  have hshown : (exec (step plainAnswers twoNodes fun _ => ⟨30, 10⟩) (State.initial Bool Bool)
      (bothListed ++ .api (.get true true) :: (firstCharges ++ [.api (.update true true)]))).map
        (fun final => final.calls.point true) =
          some (.returned (.error "update crd failed")) := by decide +kernel
  obtain ⟨final, hrun, hfinal⟩ := Option.map_eq_some_iff.mp hshown
  rw [exec_append] at hrun
  obtain ⟨start, hstart, hrun⟩ := Option.bind_eq_some_iff.mp hrun
  obtain ⟨fetched, hget, hrun⟩ := exec_cons_eq_some.mp hrun
  rw [exec_append] at hrun
  obtain ⟨last, hlast, hrun⟩ := Option.bind_eq_some_iff.mp hrun
  obtain ⟨ended, hupdate, hended⟩ := exec_cons_eq_some.mp hrun
  obtain rfl := Option.some.inj hended
  rw [hstart, Option.map_some, Option.some.injEq] at hchosen
  exact ⟨start, fetched, last, ended, hstart, hget, hlast, hupdate, hfinal,
    (charge_accepted_iff plainAnswers two_nodes_hostname bothListed firstCharges start fetched last
      ended hstart true _ hchosen hget hlast hupdate).2.mp hfinal⟩

end Runs

end UniShare.Cluster
