import UniShare.DeviceInfo.Register
import UniShare.PodWatch.Concurrent

/-!
# The cards of a cluster

The daemons of any number of nodes register their cards with `CreateCRD` of `deviceInfo/gpu.go`,
while any number of `GetGpuResource` calls of `podWatch/messenger.go` choose and charge cards; all
on one API server, in any order, and with daemons that fail and start again. `cluster_accounted`
says what the resources stand for in every state, and `registration_stuck` what becomes of a node
whose daemon starts again in the middle of its registration.
-/

namespace UniShare.Cluster

open Lib DeviceInfo PodWatch

/-! ## The machine -/

/-- A node: its name and its cards. -/
structure Node where
  hostname : String
  devices : List Device

/-- The resource that the daemon of a node creates for the card with this index. -/
def Node.card (node : Node) (i : Nat) : GPU := (nvmlTest node.devices).gpuCRD node.hostname i

/-- The resources that `CreateCRD` creates, in order. -/
def Node.cards (node : Node) : List GPU := (nvmlTest node.devices).createCRD node.hostname

/-- The loop of `CreateCRD` in the daemon of a node: its index, and whether `log.Fatalf` has ended
the process. -/
structure Loop where
  i : Nat
  aborted : Bool
  deriving DecidableEq, Repr

/-- The API server with the calls, and the daemons. -/
structure State (ν ι : Type) where
  calls : Calls ι
  loop : ν → Loop
  -- history variable: how many cards of the node have been created, in all its starts
  created : ν → Nat

/-- No resource, no call, and all daemons at the beginning of their loops. -/
def State.initial (ν ι : Type) : State ν ι :=
  { calls := Calls.initial ι
      ⟨[], List.nodup_nil, fun _ hgpu => absurd hgpu List.not_mem_nil⟩
    loop := fun _ => ⟨0, false⟩
    created := fun _ => 0 }

/-- A step: a daemon asks for the next resource, a daemon starts again, or a call makes a step.
`answered` is false when the request does not reach the server. -/
inductive Action (ν ι : Type) where
  | create (node : ν) (answered : Bool)
  | restart (node : ν)
  | api (action : ApiStep ι)
  deriving DecidableEq, Repr

variable {ν ι : Type}

/-- The loop of a node moves. -/
def State.setLoop [DecidableEq ν] (state : State ν ι) (node : ν) (loop : Loop) : State ν ι :=
  { state with loop := Function.update state.loop node loop }

/-- The next resource of a node has been created. -/
def State.register [DecidableEq ν] (state : State ν ι) (node : ν) (store : GpuStore) :
    State ν ι where
  calls := { state.calls with store := store }
  loop := Function.update state.loop node ⟨(state.loop node).i + 1, false⟩
  created := Function.update state.created node (state.created node + 1)

/-- One step of the cluster. -/
def step [DecidableEq ν] [DecidableEq ι] [Gjson] (answers : CreateAnswers) (nodes : ν → Node)
    (demands : ι → Demand) (state : State ν ι) : Action ν ι → Option (State ν ι)
  | .create node answered =>
      let loop := state.loop node
      if loop.aborted = false ∧ loop.i < (nvmlTest (nodes node).devices).count then
        if answered then
          let (err, store) := createResource answers state.calls.store ((nodes node).card loop.i)
          if err ≠ none ∧ err ≠ some statusCreated then
            some (state.setLoop node ⟨loop.i, true⟩)
          else some (state.register node store)
        else some (state.setLoop node ⟨loop.i, true⟩)
      else none
  | .restart node => some (state.setLoop node ⟨0, false⟩)
  | .api action => (apiStep demands state.calls action).map fun calls => { state with calls }

/-! ## What the resources stand for -/

/-- A registered resource after these charges. -/
def charged (gpu : GPU) (charges : List Demand) : GPU :=
  { gpu with
    resourceVersion := 1 + charges.length
    spec :=
      { gpu.spec with
        used := R.ofAmounts (charges.map Demand.core).sum (charges.map Demand.memory).sum } }

/-- What the commits have charged to the resource of this name, in order. -/
def chargesOn (demands : ι → Demand) (commits : List (Commit ι)) (name : String) : List Demand :=
  (commits.filter fun commit => commit.gpu.crdName = name).map fun commit => demands commit.call

/-- The chosen entry is that of a card that has been created. -/
def OfCard (nodes : ν → Node) (created : ν → Nat) (gpu : GpuResource) : Prop :=
  ∃ node, ∃ i < created node, gpu.crdName = ((nodes node).card i).name ∧
    gpu.uuid = ((nodes node).card i).spec.uuid

/-- The commits are the calls that succeeded, each with the card whose UUID it returned. The stored
resources are those of the first cards of every node, as the node registered them, with the sums of
what has been charged to them. A daemon is at its next card, or has started again. -/
structure Accounted (nodes : ν → Node) (demands : ι → Demand) (commits : List (Commit ι))
    (state : State ν ι) : Prop where
  nodup : (commits.map Commit.call).Nodup
  succeeded : ∀ call uuid, state.calls.point call = .returned (.ok uuid) ↔
    ∃ commit ∈ commits, commit.call = call ∧ commit.gpu.uuid = uuid
  chosen : ∀ commit ∈ commits, OfCard nodes state.created commit.gpu
  stored : ∀ name gpu, state.calls.store.get name = some gpu ↔
    ∃ node, ∃ i < state.created node, name = ((nodes node).card i).name ∧
      gpu = charged ((nodes node).card i) (chargesOn demands commits name)
  loops : ∀ node, state.created node ≤ (nodes node).devices.length ∧
    ((state.loop node).i = state.created node ∨ (state.loop node).i = 0)

/-! ## Names and charges -/

/-- With different hostnames, a name is that of one card only. -/
theorem card_name_inj {nodes : ν → Node}
    (hhost : Function.Injective fun node => (nodes node).hostname) {node other : ν} {i j : Nat}
    (h : ((nodes node).card i).name = ((nodes other).card j).name) : node = other ∧ i = j := by
  have hlast : ∀ hostname : String, ∀ c ∈ (hostname ++ "-gpu-").toList.getLast?, ¬ c.isDigit := by
    intro hostname c hc
    rw [String.toList_append, List.getLast?_append] at hc
    obtain rfl := Option.mem_some_iff.mp hc
    decide
  obtain ⟨hhostname, hindex⟩ := numbered_text_inj (hlast _) (hlast _) h
  exact ⟨hhost ((String.append_left_inj "-gpu-").mp hhostname), hindex⟩

/-- What is left of the loop begins with the next card. -/
theorem drop_cards {node : Node} {i : Nat} (h : i < (nvmlTest node.devices).count) :
    node.cards.drop i = node.card i :: node.cards.drop (i + 1) := by
  rw [List.drop_eq_getElem_cons (by simpa [Node.cards, GpuInfo.createCRD] using h)]
  simp [Node.cards, GpuInfo.createCRD, Node.card]

/-- Charging a resource as it is looked up. -/
theorem get_charged (store : GpuStore) (name other : String) (core memory : Int64) :
    (store.charged name core memory).get other =
      (store.get other).map (chargeNamed name core memory) := by
  unfold GpuStore.get GpuStore.charged
  rw [List.find?_map]
  simp

/-- A further charge on a registered resource. -/
theorem charge_named_charged (gpu : GPU) (charges : List Demand) (demand : Demand) :
    chargeNamed gpu.name demand.core demand.memory (charged gpu charges) =
      charged gpu (charges ++ [demand]) := by
  rw [chargeNamed, if_pos (show (charged gpu charges).name = gpu.name from rfl)]
  simp [charge, charged, R.ofAmounts, Nat.add_assoc]

/-- A further commit charges the resource that it names, and no other. -/
theorem charges_on_concat (demands : ι → Demand) (commits : List (Commit ι)) (commit : Commit ι)
    (name : String) :
    chargesOn demands (commits ++ [commit]) name =
      if commit.gpu.crdName = name then chargesOn demands commits name ++ [demands commit.call]
      else chargesOn demands commits name := by
  rw [chargesOn, List.filter_append, List.map_append]
  split
  · rename_i hname
    simp [chargesOn, hname]
  · rename_i hname
    simp [chargesOn, hname]

/-- A fetched resource is as recent as before when another one is created. -/
theorem fetched_from_created {store : GpuStore} {gpu : GpuResource} {data : GPU}
    (h : FetchedFrom store gpu data) (other : GPU) :
    FetchedFrom (createGpu store other) gpu data := by
  rcases h with hempty | ⟨hname, current, hcurrent, hsame, hrecent⟩
  · exact .inl hempty
  · exact .inr ⟨hname, current, mem_create_gpu hcurrent other, hsame, hrecent⟩

/-- A charge on a stored resource is one more commit on it. -/
theorem charge_named_commit (demands : ι → Demand) (commits : List (Commit ι)) (commit : Commit ι)
    (gpu : GPU) :
    chargeNamed commit.gpu.crdName (demands commit.call).core (demands commit.call).memory
        (charged gpu (chargesOn demands commits gpu.name)) =
      charged gpu (chargesOn demands (commits ++ [commit]) gpu.name) := by
  rw [charges_on_concat]
  by_cases hname : commit.gpu.crdName = gpu.name
  · rw [if_pos hname, hname, charge_named_charged]
  · rw [if_neg hname, chargeNamed, if_neg]
    exact fun hsame => hname hsame.symm

/-- A resource as it is created. -/
theorem charged_nil (node : Node) (i : Nat) :
    charged (node.card i) [] = { node.card i with resourceVersion := 1 } := by
  have hzero : R.ofAmounts 0 0 = ⟨"0", "0"⟩ := by decide
  simp only [charged, List.map_nil, List.sum_nil, hzero]
  rfl

/-! ## What a call does in a step -/

/-- A step of a call: it chooses a card from a listing, fetches it, charges it, or ends without a
charge. -/
inductive ApiEffect [DecidableEq ι] [Gjson] (demands : ι → Demand) (state : Calls ι) :
    ApiStep ι → Calls ι → Prop where
  | listed {call : ι} (gpu : GpuResource) (hidle : state.point call = .idle)
      (hselect : selectGpu (demands call).core (demands call).memory
        (gpudataList (gpuListJson state.store.items)) = some gpu) :
      ApiEffect demands state (.list call true) (state.setPoint call (.listed gpu))
  | fetched {call : ι} {answered : Bool} (gpu : GpuResource)
      (hlisted : state.point call = .listed gpu) :
      ApiEffect demands state (.get call answered) (state.setPoint call (.fetched gpu
        ((if answered then state.store.get gpu.crdName else none).getD default)))
  | charged {call : ι} (gpu : GpuResource) (data : GPU) (updated : GpuStore)
      (hfetched : state.point call = .fetched gpu data)
      (hupdate : state.store.update (charge (demands call).core (demands call).memory data) =
        some updated) :
      ApiEffect demands state (.update call true)
        { state.setPoint call (.returned (.ok gpu.uuid)) with store := updated }
  | failed {action : ApiStep ι} (call : ι) (outcome : Outcome String)
      (hrunning : ∀ other, state.point call ≠ .returned other)
      (hfailed : ∀ uuid, outcome ≠ .ok uuid) :
      ApiEffect demands state action (state.setPoint call (.returned outcome))

/-- Every step of a call is one of these. -/
theorem api_effect [DecidableEq ι] [Gjson] {demands : ι → Demand} {state next : Calls ι}
    {action : ApiStep ι} (hstep : apiStep demands state action = some next) :
    ApiEffect demands state action next := by
  cases action with
  | list call answered =>
      simp only [apiStep] at hstep
      split at hstep
      · rename_i hidle
        split at hstep
        · rename_i hanswered
          subst hanswered
          split at hstep <;> cases hstep
          · exact .failed call _ (by simp [hidle]) (by simp)
          · rename_i gpu hselect
            exact .listed gpu hidle hselect
        · cases hstep
          exact .failed call _ (by simp [hidle]) (by simp)
      · cases hstep
  | get call answered =>
      simp only [apiStep] at hstep
      split at hstep <;> cases hstep
      rename_i gpu hlisted
      exact .fetched gpu hlisted
  | update call answered =>
      simp only [apiStep] at hstep
      split at hstep
      · rename_i gpu data hfetched
        split at hstep <;> cases hstep
        · exact .failed call _ (by simp [hfetched]) (by simp)
        · rename_i updated hupdate
          cases answered with
          | false => cases hupdate
          | true => exact .charged gpu data updated hfetched hupdate
      · cases hstep

/-! ## The invariant -/

/-- What a call knows at its point. -/
def PointKnown (nodes : ν → Node) (created : ν → Nat) (store : GpuStore) : CallPoint → Prop
  | .listed gpu => OfCard nodes created gpu
  | .fetched gpu data => OfCard nodes created gpu ∧ FetchedFrom store gpu data
  | .idle | .returned _ => True

/-- The invariant of the cluster. -/
structure Inv (nodes : ν → Node) (demands : ι → Demand) (commits : List (Commit ι))
    (state : State ν ι) : Prop extends Accounted nodes demands commits state where
  points : ∀ call,
    PointKnown nodes state.created state.calls.store (state.calls.point call)

section Steps

variable {nodes : ν → Node} {demands : ι → Demand} {commits : List (Commit ι)} {state : State ν ι}

/-- A card that has been created stays created. -/
theorem OfCard.later {created after : ν → Nat} {gpu : GpuResource} (h : OfCard nodes created gpu)
    (hafter : ∀ node, created node ≤ after node) : OfCard nodes after gpu := by
  obtain ⟨node, i, hi, hcard⟩ := h
  exact ⟨node, i, lt_of_lt_of_le hi (hafter node), hcard⟩

/-- What is chosen from a listing is a card that has been created. -/
theorem of_card_selected [Gjson] (h : Accounted nodes demands commits state) {core memory : Int64}
    {gpu : GpuResource}
    (hselect : selectGpu core memory (gpudataList (gpuListJson state.calls.store.items)) =
      some gpu) : OfCard nodes state.created gpu := by
  obtain ⟨listed, hlisted, rfl⟩ := select_gpu_eq_some_iff.mp hselect
  obtain ⟨node, i, hi, hname, hcharged⟩ :=
    (h.stored _ _).mp (state.calls.store.get_of_mem hlisted.mem)
  refine ⟨node, i, hi, ?_, ?_⟩
  · rw [entryOf, gpuresource_toJson]
    exact hname
  · rw [entryOf, gpuresource_toJson]
    show listed.spec.uuid = _
    rw [hcharged]
    rfl

/-- A call that moves without a write keeps the invariant. -/
theorem Inv.move [DecidableEq ι] (h : Inv nodes demands commits state) {call : ι}
    {point : CallPoint} (hrunning : ∀ uuid, state.calls.point call ≠ .returned (.ok uuid))
    (hfailed : ∀ uuid, point ≠ .returned (.ok uuid))
    (hknown : PointKnown nodes state.created state.calls.store point) :
    Inv nodes demands commits { state with calls := state.calls.setPoint call point } := by
  refine ⟨⟨h.nodup, fun other uuid => ?_, h.chosen, h.stored, h.loops⟩, fun other => ?_⟩
  · by_cases hother : other = call
    · subst hother
      refine iff_of_false ?_ fun hcommit => hrunning uuid ((h.succeeded other uuid).mpr hcommit)
      simpa [Calls.setPoint] using hfailed uuid
    · simpa [Calls.setPoint, Function.update_of_ne hother] using h.succeeded other uuid
  · by_cases hother : other = call
    · subst hother
      simpa [Calls.setPoint] using hknown
    · simpa [Calls.setPoint, Function.update_of_ne hother] using h.points other

/-- An accepted write adds the call's commit. -/
theorem Inv.commit [DecidableEq ι] (h : Inv nodes demands commits state) {call : ι}
    {gpu : GpuResource} {data : GPU} (hpoint : state.calls.point call = .fetched gpu data) :
    Inv nodes demands (commits ++ [⟨call, gpu⟩])
      { state with
        calls :=
          { state.calls.setPoint call (.returned (.ok gpu.uuid)) with
            store := state.calls.store.charged gpu.crdName (demands call).core
              (demands call).memory } } := by
  have hrunning : ∀ commit ∈ commits, commit.call ≠ call := by
    intro commit hcommit hsame
    have hreturned := (h.succeeded _ _).mpr ⟨commit, hcommit, rfl, rfl⟩
    rw [hsame, hpoint] at hreturned
    cases hreturned
  have hknown := h.points call
  rw [hpoint] at hknown
  refine ⟨⟨?_, fun other uuid => ?_, forall_mem_concat h.chosen hknown.1, fun name stored => ?_,
    h.loops⟩, fun other => ?_⟩
  · rw [List.map_append, List.nodup_append]
    refine ⟨h.nodup, List.nodup_singleton _, fun earlier hearlier last hlast hsame => ?_⟩
    obtain ⟨commit, hcommit, rfl⟩ := List.mem_map.mp hearlier
    obtain rfl := List.mem_singleton.mp hlast
    exact hrunning commit hcommit hsame
  · simp only [List.mem_append, List.mem_singleton, or_and_right, exists_or, exists_eq_left]
    by_cases hother : other = call
    · subst hother
      have hnone : ¬ ∃ commit ∈ commits, commit.call = other ∧ commit.gpu.uuid = uuid := by
        intro hcommitted
        obtain ⟨commit, hcommit, hsame, -⟩ := hcommitted
        exact hrunning commit hcommit hsame
      simp [Calls.setPoint, hnone]
    · rw [← h.succeeded other uuid]
      simp [Calls.setPoint, Function.update_of_ne hother, Ne.symm hother]
  · show (state.calls.store.charged _ _ _).get name = some stored ↔ _
    rw [get_charged, Option.map_eq_some_iff]
    constructor
    · intro hold
      obtain ⟨old, hold, rfl⟩ := hold
      obtain ⟨node, i, hi, rfl, rfl⟩ := (h.stored name old).mp hold
      exact ⟨node, i, hi, rfl, charge_named_commit demands commits ⟨call, gpu⟩ _⟩
    · intro hcard
      obtain ⟨node, i, hi, rfl, rfl⟩ := hcard
      exact ⟨_, (h.stored _ _).mpr ⟨node, i, hi, rfl, rfl⟩,
        charge_named_commit demands commits ⟨call, gpu⟩ _⟩
  · by_cases hother : other = call
    · subst hother
      simp [Calls.setPoint, PointKnown]
    · have hpoint := h.points other
      simp only [Calls.setPoint, Function.update_of_ne hother]
      cases hother : state.calls.point other with
      | idle => trivial
      | listed chosen => rwa [hother] at hpoint
      | fetched chosen data =>
          rw [hother] at hpoint
          exact ⟨hpoint.1, fetched_from_charged hpoint.2 _ _ _⟩
      | returned outcome => trivial

/-- A step of a call keeps the invariant, for the commits so far or for one more. -/
theorem Inv.api [DecidableEq ι] [Gjson] (h : Inv nodes demands commits state) {action : ApiStep ι}
    {calls : Calls ι} (hstep : apiStep demands state.calls action = some calls) :
    ∃ later, Inv nodes demands later { state with calls } := by
  cases api_effect hstep with
  | listed gpu hidle hselect =>
      exact ⟨commits, h.move (by simp [hidle]) (by simp)
        (of_card_selected h.toAccounted hselect)⟩
  | @fetched call answered gpu hlisted =>
      have hknown := h.points call
      rw [hlisted] at hknown
      exact ⟨commits, h.move (by simp [hlisted]) (by simp)
        ⟨hknown, fetched_from_get state.calls.store gpu answered⟩⟩
  | @charged call gpu data updated hfetched hupdate =>
      have hknown := h.points call
      rw [hfetched] at hknown
      obtain rfl := update_of_fetched hknown.2 hupdate
      exact ⟨_, h.commit hfetched⟩
  | failed call outcome hrunning hfailed =>
      exact ⟨commits, h.move (fun uuid => hrunning _)
        (fun uuid hok => hfailed uuid (CallPoint.returned.inj hok)) trivial⟩

/-- A daemon that ends or starts again keeps the invariant. -/
theorem Inv.setLoop [DecidableEq ν] (h : Inv nodes demands commits state) {node : ν} {loop : Loop}
    (hloop : loop.i = (state.loop node).i ∨ loop.i = 0) :
    Inv nodes demands commits (state.setLoop node loop) := by
  refine ⟨⟨h.nodup, h.succeeded, h.chosen, h.stored, fun other => ⟨(h.loops other).1, ?_⟩⟩,
    h.points⟩
  by_cases hother : other = node
  · subst hother
    simp only [State.setLoop, Function.update_self]
    rcases hloop with hsame | hzero
    · rw [hsame]
      exact (h.loops other).2
    · exact .inr hzero
  · simp only [State.setLoop, Function.update_of_ne hother]
    exact (h.loops other).2

/-- The name of a card that has not been created is not in use. -/
theorem Inv.get_next (hhost : Function.Injective fun node => (nodes node).hostname)
    (h : Inv nodes demands commits state) (node : ν) :
    state.calls.store.get ((nodes node).card (state.created node)).name = none := by
  cases hget : state.calls.store.get ((nodes node).card (state.created node)).name with
  | none => rfl
  | some gpu =>
      obtain ⟨other, i, hi, hname, -⟩ := (h.stored _ _).mp hget
      obtain ⟨rfl, rfl⟩ := card_name_inj hhost hname
      exact absurd hi (lt_irrefl _)

/-- Nothing has been charged to a card that has not been created. -/
theorem Inv.charges_on_next (hhost : Function.Injective fun node => (nodes node).hostname)
    (h : Inv nodes demands commits state) (node : ν) :
    chargesOn demands commits ((nodes node).card (state.created node)).name = [] := by
  rw [chargesOn, List.map_eq_nil_iff, List.filter_eq_nil_iff]
  intro commit hcommit hnamed
  obtain ⟨other, i, hi, hname, -⟩ := h.chosen commit hcommit
  obtain ⟨rfl, rfl⟩ := card_name_inj hhost (hname.symm.trans (of_decide_eq_true hnamed))
  exact lt_irrefl _ hi

/-- The creation of the next card of a node keeps the invariant. -/
theorem Inv.create [DecidableEq ν] (hhost : Function.Injective fun node => (nodes node).hostname)
    (h : Inv nodes demands commits state) {node : ν}
    (hloop : (state.loop node).i = state.created node)
    (hmore : state.created node < (nodes node).devices.length) :
    Inv nodes demands commits
      (state.register node
        (createGpu state.calls.store ((nodes node).card (state.created node)))) := by
  have hgrown : ∀ other, state.created other ≤
      Function.update state.created node (state.created node + 1) other := by
    intro other
    by_cases hother : other = node
    · subst hother
      simp
    · simp [Function.update_of_ne hother]
  have hnamed : ((nodes node).card (state.created node)).name ≠ "" := by
    intro hempty
    have hlist := congrArg String.toList hempty
    simp [Node.card, GpuInfo.gpuCRD] at hlist
  refine ⟨⟨h.nodup, h.succeeded, fun commit hcommit => (h.chosen commit hcommit).later hgrown,
    fun name gpu => ?_, fun other => ?_⟩, fun call => ?_⟩
  · show (createGpu _ _).get name = some gpu ↔ ∃ other, ∃ i < Function.update state.created node
      (state.created node + 1) other, _
    rw [get_create_gpu hnamed (h.get_next hhost node)]
    have hnew := charged_nil (nodes node) (state.created node)
    constructor
    · intro hget
      split at hget
      · rename_i hname
        obtain rfl := Option.some.inj hget
        refine ⟨node, state.created node, by simp, hname.symm, ?_⟩
        rw [← hname, h.charges_on_next hhost, hnew]
      · obtain ⟨other, i, hi, hcard⟩ := (h.stored name gpu).mp hget
        exact ⟨other, i, lt_of_lt_of_le hi (hgrown other), hcard⟩
    · intro hcard
      obtain ⟨other, i, hi, rfl, rfl⟩ := hcard
      split
      · rename_i hname
        obtain ⟨rfl, rfl⟩ := card_name_inj hhost hname
        rw [h.charges_on_next hhost, hnew]
      · rename_i hname
        refine (h.stored _ _).mpr ⟨other, i, ?_, rfl, rfl⟩
        by_cases hother : other = node
        · subst hother
          rw [Function.update_self] at hi
          have hne : i ≠ state.created other := fun hsame => hname (by rw [hsame])
          omega
        · rwa [Function.update_of_ne hother] at hi
  · by_cases hother : other = node
    · subst hother
      simp only [State.register, Function.update_self]
      exact ⟨hmore, .inl (by rw [hloop])⟩
    · simp only [State.register, Function.update_of_ne hother]
      exact h.loops other
  · have hpoint := h.points call
    show PointKnown nodes _ _ (state.calls.point call)
    cases hcall : state.calls.point call with
    | idle => trivial
    | listed gpu =>
        rw [hcall] at hpoint
        exact hpoint.later hgrown
    | fetched gpu data =>
        rw [hcall] at hpoint
        exact ⟨hpoint.1.later hgrown, fetched_from_created hpoint.2 _⟩
    | returned outcome => trivial

/-- Asking for a resource that exists is an error. -/
theorem create_resource_existing (answers : CreateAnswers) {store : GpuStore} {gpu known : GPU}
    (h : store.get gpu.name = some known) :
    (createResource answers store gpu).1 ≠ none ∧
      (createResource answers store gpu).1 ≠ some statusCreated := by
  rw [createResource, h]
  exact ⟨Option.some_ne_none _, fun heq => answers.existing_refused gpu (Option.some.inj heq)⟩

/-- Asking for a new resource is no error, and creates it. -/
theorem create_resource_new (answers : CreateAnswers) {store : GpuStore} {gpu : GPU}
    (h : store.get gpu.name = none) :
    ¬ ((createResource answers store gpu).1 ≠ none ∧
        (createResource answers store gpu).1 ≠ some statusCreated) ∧
      (createResource answers store gpu).2 = createGpu store gpu := by
  rw [createResource, h]
  refine ⟨fun herr => ?_, rfl⟩
  obtain ⟨err, hfresh⟩ := Option.ne_none_iff_exists'.mp herr.1
  exact herr.2 (hfresh.trans (congrArg some (answers.fresh_created gpu err hfresh)))

/-- A daemon whose next resource is created without an error is at its next card. -/
theorem Inv.at_next (h : Inv nodes demands commits state) (answers : CreateAnswers) {node : ν}
    (hcreated : ¬ ((createResource answers state.calls.store
          ((nodes node).card (state.loop node).i)).1 ≠ none ∧
        (createResource answers state.calls.store
          ((nodes node).card (state.loop node).i)).1 ≠ some statusCreated)) :
    (state.loop node).i = state.created node := by
  rcases (h.loops node).2 with hnext | hzero
  · exact hnext
  · rcases Nat.eq_zero_or_pos (state.created node) with hnone | hsome
    · rw [hzero, hnone]
    · have hstored := (h.stored _ _).mpr ⟨node, 0, hsome, rfl, rfl⟩
      rw [hzero] at hcreated
      exact absurd (create_resource_existing answers hstored) hcreated

/-- The number of cards that the loop of a node runs over. -/
theorem count_devices (devices : List Device) : (nvmlTest devices).count = devices.length :=
  (foldl_add_device_uid devices _).2

/-- Every step keeps the invariant, for the commits so far or for one more. -/
theorem inv_step [DecidableEq ν] [DecidableEq ι] [Gjson] (answers : CreateAnswers)
    (hhost : Function.Injective fun node => (nodes node).hostname)
    (h : Inv nodes demands commits state) {action : Action ν ι} {next : State ν ι}
    (hstep : step answers nodes demands state action = some next) :
    ∃ later, Inv nodes demands later next := by
  cases action with
  | create node answered =>
      simp only [step] at hstep
      split at hstep
      · rename_i hrunning
        cases answered with
        | false =>
            cases hstep
            exact ⟨commits, h.setLoop (.inl rfl)⟩
        | true =>
            simp only [if_true] at hstep
            split at hstep <;> cases hstep
            · exact ⟨commits, h.setLoop (.inl rfl)⟩
            · rename_i hcreated
              have hnext := h.at_next answers hcreated
              rw [hnext, (create_resource_new answers (h.get_next hhost node)).2]
              have hmore := hrunning.2
              rw [hnext, count_devices] at hmore
              exact ⟨commits, h.create hhost hnext hmore⟩
      · cases hstep
  | restart node =>
      cases hstep
      exact ⟨commits, h.setLoop (.inr rfl)⟩
  | api action =>
      obtain ⟨calls, hcalls, rfl⟩ := Option.map_eq_some_iff.mp hstep
      exact h.api hcalls

/-- The invariant holds of the beginning. -/
theorem inv_initial : Inv nodes demands [] (State.initial ν ι) where
  nodup := List.nodup_nil
  succeeded call uuid := by simp [State.initial, Calls.initial]
  chosen commit hcommit := absurd hcommit List.not_mem_nil
  stored name gpu := by simp [State.initial, Calls.initial, GpuStore.get]
  loops node := ⟨Nat.zero_le _, .inl rfl⟩
  points call := trivial

/-- A daemon that ends is where it was. -/
theorem set_loop_i [DecidableEq ν] (state : State ν ι) (node other : ν) (aborted : Bool) :
    ((state.setLoop node ⟨(state.loop node).i, aborted⟩).loop other).i = (state.loop other).i := by
  by_cases hother : other = node
  · subst hother
    simp [State.setLoop]
  · simp [State.setLoop, Function.update_of_ne hother]

/-- A daemon that has started again after the creation of a card does not get past its first one.
-/
theorem stuck_step [DecidableEq ν] [DecidableEq ι] [Gjson] (answers : CreateAnswers)
    (h : Inv nodes demands commits state) {node : ν} (hsome : 0 < state.created node)
    (hzero : (state.loop node).i = 0) {action : Action ν ι} {next : State ν ι}
    (hstep : step answers nodes demands state action = some next) :
    next.created node = state.created node ∧ (next.loop node).i = 0 := by
  cases action with
  | create other answered =>
      simp only [step] at hstep
      split at hstep
      · cases answered with
        | false =>
            cases hstep
            exact ⟨rfl, (set_loop_i state other node true).trans hzero⟩
        | true =>
            simp only [if_true] at hstep
            split at hstep <;> cases hstep
            · exact ⟨rfl, (set_loop_i state other node true).trans hzero⟩
            · rename_i hcreated
              have hnext := h.at_next answers hcreated
              have hother : node ≠ other := by
                rintro rfl
                omega
              simpa [State.register, Function.update_of_ne hother] using hzero
      · cases hstep
  | restart other =>
      cases hstep
      refine ⟨rfl, ?_⟩
      by_cases hother : node = other
      · subst hother
        simp [State.setLoop]
      · simpa [State.setLoop, Function.update_of_ne hother] using hzero
  | api action =>
      obtain ⟨calls, -, rfl⟩ := Option.map_eq_some_iff.mp hstep
      exact ⟨rfl, hzero⟩

end Steps

section Runs

variable [DecidableEq ν] [DecidableEq ι] (answers : CreateAnswers) (nodes : ν → Node)
  (demands : ι → Demand)

/-! ## A daemon alone -/

/-- A daemon that nothing interrupts runs the rest of its loop. -/
theorem create_rest [Gjson] (node : ν) (left i : Nat) (state : State ν ι)
    (hleft : i + left = (nvmlTest (nodes node).devices).count)
    (hloop : state.loop node = ⟨i, false⟩) :
    ∃ n final, exec (step answers nodes demands) state (List.replicate n (.create node true)) =
        some final ∧
      createLoop answers ((nodes node).cards.drop i) state.calls.store =
        ⟨(final.loop node).aborted, final.calls.store⟩ ∧
      final.calls.point = state.calls.point := by
  induction left generalizing i state with
  | zero =>
      have hend : (nodes node).cards.drop i = [] := by
        rw [List.drop_eq_nil_iff, Node.cards, GpuInfo.createCRD, List.length_map, List.length_range]
        omega
      exact ⟨0, state, rfl, by rw [hend, hloop]; rfl, rfl⟩
  | succ left ih =>
      have hmore : i < (nvmlTest (nodes node).devices).count := by omega
      rw [drop_cards hmore, createLoop]
      cases hget : state.calls.store.get ((nodes node).card i).name with
      | some known =>
          have herr := create_resource_existing answers hget
          have hsame : (createResource answers state.calls.store ((nodes node).card i)).2 =
              state.calls.store := by
            rw [createResource, hget]
            rfl
          have hstep : step answers nodes demands state (.create node true) =
              some (state.setLoop node ⟨i, true⟩) := by
            simp only [step, hloop, hmore, true_and, if_true, if_pos herr]
          refine ⟨1, state.setLoop node ⟨i, true⟩, exec_cons_eq_some.mpr ⟨_, hstep, rfl⟩, ?_, rfl⟩
          simp only [if_pos herr, hsame]
          simp [State.setLoop]
      | none =>
          have hnew := create_resource_new answers hget
          have hstep : step answers nodes demands state (.create node true) =
              some (state.register node (createGpu state.calls.store ((nodes node).card i))) := by
            simp only [step, hloop, hmore, true_and, if_true, if_neg hnew.1, hnew.2]
          obtain ⟨n, final, hrun, hregistration, hpoint⟩ :=
            ih (i + 1) (state.register node (createGpu state.calls.store ((nodes node).card i)))
              (by omega) (by simp [State.register, hloop])
          refine ⟨n + 1, final, exec_cons_eq_some.mpr ⟨_, hstep, hrun⟩, ?_, hpoint⟩
          simp only [if_neg hnew.1, hnew.2]
          exact hregistration

/-- A daemon that nothing interrupts does what `CreateCRD` does. -/
theorem create_alone [Gjson] {state : State ν ι} {node : ν} (hloop : state.loop node = ⟨0, false⟩) :
    ∃ n final, exec (step answers nodes demands) state (List.replicate n (.create node true)) =
        some final ∧
      register answers (nodes node).hostname (nodes node).devices state.calls.store =
        ⟨(final.loop node).aborted, final.calls.store⟩ ∧
      final.calls.point = state.calls.point :=
  create_rest answers nodes demands node _ 0 state (Nat.zero_add _) hloop

/-! ## The results -/

variable {nodes demands}

/-- Every run keeps the invariant. -/
theorem inv_run [Gjson] (hhost : Function.Injective fun node => (nodes node).hostname)
    {actions : List (Action ν ι)} {state final : State ν ι}
    (h : ∃ commits, Inv nodes demands commits state)
    (hrun : exec (step answers nodes demands) state actions = some final) :
    ∃ commits, Inv nodes demands commits final := by
  have hpreserve : ∀ current action next, (∃ commits, Inv nodes demands commits current) →
      step answers nodes demands current action = some next →
      ∃ commits, Inv nodes demands commits next := by
    intro current action next hcurrent hstep
    obtain ⟨commits, hinv⟩ := hcurrent
    exact inv_step answers hhost hinv hstep
  exact exec_invariant hpreserve h hrun

/-- In every run of any number of nodes with different names, and of any number of calls, the
successful calls are commits, and the stored resources are the cards created so far, each as its own
node has registered it, with the sums of what the commits have charged to it. A daemon that has not
started again is never hindered from creating its next card. -/
theorem cluster_accounted [Gjson]
    (hhost : Function.Injective fun node => (nodes node).hostname)
    (actions : List (Action ν ι)) (state : State ν ι)
    (hrun : exec (step answers nodes demands) (State.initial ν ι) actions = some state) :
    (∃ commits, Accounted nodes demands commits state) ∧
      ∀ node, (state.loop node).aborted = false →
        (state.loop node).i = state.created node →
        state.created node < (nodes node).devices.length →
        ∃ next, step answers nodes demands state (.create node true) = some next ∧
          next.created node = state.created node + 1 := by
  obtain ⟨commits, hinv⟩ := inv_run answers hhost ⟨[], inv_initial⟩ hrun
  refine ⟨⟨commits, hinv.toAccounted⟩, fun node halive hloop hmore => ?_⟩
  have hnew := create_resource_new answers (hinv.get_next hhost node)
  refine ⟨state.register node (createGpu state.calls.store
    ((nodes node).card (state.created node))), ?_, by simp [State.register]⟩
  simp only [step, halive, hloop, count_devices, hmore, true_and, if_true, if_neg hnew.1, hnew.2]

/-- A node for each of two names. -/
def twoNodes : Bool → Node
  | false => ⟨"a", [⟨"GPU-a0", 0, true, 17179869184⟩, ⟨"GPU-a1", 1, true, 17179869184⟩]⟩
  | true => ⟨"b", [⟨"GPU-b0", 0, true, 17179869184⟩]⟩

/-- The nodes have different names. -/
theorem two_nodes_hostname : Function.Injective fun node => (twoNodes node).hostname := by
  intro node other h
  cases node with
  | false =>
      cases other with
      | false => rfl
      | true => exact absurd h (by decide)
  | true =>
      cases other with
      | false => exact absurd h (by decide)
      | true => rfl

/-- Two nodes register while a call chooses and charges a card; one of them starts again. -/
def interleaved : List (Action Bool Unit) :=
  [.create true true, .api (.list () true), .create false true, .api (.get () true),
    .restart false, .api (.update () true), .create false true]

/-- The call has charged the card of `b`, and the second daemon of `a` has ended. -/
theorem cluster_accounted_interleaved :
    letI := Gjson.reader
    ∃ state, exec (step plainAnswers twoNodes fun _ => ⟨30, 10⟩) (State.initial Bool Unit)
        interleaved = some state ∧
      (∃ commits, Accounted twoNodes (fun _ => ⟨30, 10⟩) commits state) ∧
        state.calls.point () = .returned (.ok "GPU-b0") ∧ (state.loop false).aborted = true := by
  let reader := Gjson.reader
  have hshown : (exec (step plainAnswers twoNodes fun _ => ⟨30, 10⟩) (State.initial Bool Unit)
      interleaved).map (fun state => (state.calls.point (), (state.loop false).aborted)) =
        some (.returned (.ok "GPU-b0"), true) := by decide +kernel
  obtain ⟨state, hrun, hstate⟩ := Option.map_eq_some_iff.mp hshown
  exact ⟨state, hrun, (cluster_accounted plainAnswers two_nodes_hostname interleaved state hrun).1,
    congrArg Prod.fst hstate, congrArg Prod.snd hstate⟩

/-- A node whose daemon has started again after the creation of a card: in every run from there,
with any number of further starts, no card of the node is created. -/
theorem registration_stuck [Gjson]
    (hhost : Function.Injective fun node => (nodes node).hostname)
    (actions more : List (Action ν ι)) (state final : State ν ι)
    (hrun : exec (step answers nodes demands) (State.initial ν ι) actions = some state) (node : ν)
    (hsome : 0 < state.created node) (hagain : (state.loop node).i = 0)
    (hmore : exec (step answers nodes demands) state more = some final) :
    final.created node = state.created node ∧
      ∀ i, state.created node ≤ i → final.calls.store.get ((nodes node).card i).name = none := by
  obtain ⟨commits, hinv⟩ := inv_run answers hhost ⟨[], inv_initial⟩ hrun
  have hstep : ∀ current action next,
      ((∃ commits, Inv nodes demands commits current) ∧
        current.created node = state.created node ∧ (current.loop node).i = 0) →
      step answers nodes demands current action = some next →
      (∃ commits, Inv nodes demands commits next) ∧
        next.created node = state.created node ∧ (next.loop node).i = 0 := by
    intro current action next hcurrent hstep
    obtain ⟨⟨commits, hinv⟩, hcreated, hzero⟩ := hcurrent
    obtain ⟨hsame, hagain⟩ := stuck_step answers hinv (by rwa [hcreated]) hzero hstep
    exact ⟨inv_step answers hhost hinv hstep, hsame.trans hcreated, hagain⟩
  obtain ⟨⟨later, hfinal⟩, hcreated, -⟩ :=
    exec_invariant hstep ⟨⟨commits, hinv⟩, rfl, hagain⟩ hmore
  refine ⟨hcreated, fun i hi => ?_⟩
  cases hget : final.calls.store.get ((nodes node).card i).name with
  | none => rfl
  | some gpu =>
      obtain ⟨other, j, hj, hname, -⟩ := (hfinal.stored _ _).mp hget
      obtain ⟨rfl, rfl⟩ := card_name_inj hhost hname
      rw [hcreated] at hj
      omega

/-- The second card of `a`, after a start between the two. -/
theorem registration_stuck_interleaved :
    letI := Gjson.reader
    ∃ state, exec (step plainAnswers twoNodes fun _ => ⟨30, 10⟩) (State.initial Bool Unit)
        interleaved = some state ∧
      ∀ more final, exec (step plainAnswers twoNodes fun _ => ⟨30, 10⟩) state more = some final →
        final.calls.store.get "a-gpu-1" = none := by
  let reader := Gjson.reader
  have hshown : (exec (step plainAnswers twoNodes fun _ => ⟨30, 10⟩) (State.initial Bool Unit)
      interleaved).map (fun state => (state.created false, (state.loop false).i)) =
        some (1, 0) := by decide +kernel
  obtain ⟨state, hrun, hstate⟩ := Option.map_eq_some_iff.mp hshown
  have hcreated : state.created false = 1 := congrArg Prod.fst hstate
  refine ⟨state, hrun, fun more final hmore => ?_⟩
  exact (registration_stuck plainAnswers two_nodes_hostname interleaved more state final hrun false
    (by rw [hcreated]; exact Nat.one_pos) (congrArg Prod.snd hstate) hmore).2 1 hcreated.le

end Runs

end UniShare.Cluster
