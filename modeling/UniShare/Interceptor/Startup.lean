import UniShare.Controller.PcAlg
import UniShare.ResourceManager.Manager

/-!
# Starting the control threads

After the entry points of `core/interceptor/hijack_gpu.c` and `hijack_mlu.c` that create a control
thread, `read_controller_configuration` of `core/container/contInfoReg.c`, and `source_control` of
`core/controller/pc_alg.c`, which copies the limit once when it starts. The machine has any number
of calls in progress, each at its next statement, and the control threads that they have created;
the body of a `pthread_once` runs atomically. `yaml_limit_read_iff` says when every control thread
runs with the limit of the file.
-/

namespace UniShare.Interceptor

open Lib Controller

/-! ## The entry points -/

/-- `rc_data_t`, which has the layout of the record that the manager writes. -/
abbrev RcData := ResourceManager.ResourceData

/-- `config_data` before it is read. -/
def RcData.zero : RcData := ⟨"", "", 0, 0⟩

/-- The guards that are passed to `pthread_once`. -/
inductive Once where
  | readConfig
  | gpuLibPtrInit
  | gpuProd
  | mluLibPtrInit
  | mluProd
  deriving DecidableEq, Repr

/-- A statement of an entry point: a `pthread_once` with its guard, a direct call of
`read_controller_configuration`, or the call of the driver's function. -/
inductive Statement where
  | pthreadOnce (guard : Once)
  | readControllerConfiguration
  | callEntry
  deriving DecidableEq, Repr

/-- The hooked functions that create a control thread. -/
inductive EntryPoint where
  | cuDriverGetVersion
  | cuInit
  | cuGetProcAddress
  | cnInit
  | cnGetLibVersion
  | cnGetExportFunction
  deriving DecidableEq, Repr

/-- `cuDriverGetVersion`. -/
def cuDriverGetVersion : List Statement :=
  [.pthreadOnce .gpuLibPtrInit, .pthreadOnce .gpuProd, .callEntry]

/-- `cuInit`. -/
def cuInit : List Statement :=
  [.pthreadOnce .readConfig, .pthreadOnce .gpuLibPtrInit, .pthreadOnce .gpuProd, .callEntry]

/-- `cuGetProcAddress`, up to the driver's. -/
def cuGetProcAddress : List Statement :=
  [.pthreadOnce .readConfig, .pthreadOnce .gpuLibPtrInit, .pthreadOnce .gpuProd, .callEntry]

/-- `cnInit`. -/
def cnInit : List Statement :=
  [.readControllerConfiguration, .pthreadOnce .mluLibPtrInit, .pthreadOnce .mluProd, .callEntry]

/-- `cnGetLibVersion`. -/
def cnGetLibVersion : List Statement :=
  [.readControllerConfiguration, .pthreadOnce .mluLibPtrInit, .pthreadOnce .mluProd, .callEntry]

/-- `cnGetExportFunction`. -/
def cnGetExportFunction : List Statement :=
  [.readControllerConfiguration, .pthreadOnce .mluLibPtrInit, .pthreadOnce .mluProd, .callEntry]

/-- The statements of an entry point. -/
def EntryPoint.body : EntryPoint → List Statement
  | .cuDriverGetVersion => Interceptor.cuDriverGetVersion
  | .cuInit => Interceptor.cuInit
  | .cuGetProcAddress => Interceptor.cuGetProcAddress
  | .cnInit => Interceptor.cnInit
  | .cnGetLibVersion => Interceptor.cnGetLibVersion
  | .cnGetExportFunction => Interceptor.cnGetExportFunction

/-- The statement reads the configuration, or has waited for it to be read. -/
def Statement.reads : Statement → Bool
  | .readControllerConfiguration | .pthreadOnce .readConfig => true
  | _ => false

/-- The statement creates a control thread. -/
def Statement.creates : Statement → Bool
  | .pthreadOnce .gpuProd | .pthreadOnce .mluProd => true
  | _ => false

namespace Startup

/-! ## The machine -/

/-- The constants that `initCndev` and `initCudev` read from a card. -/
structure Card where
  cores : Int
  threads : Int
  totalCores : Int
  deriving DecidableEq, Repr

/-- A control thread: created and not yet scheduled, or in the loop of `source_control` with its
`yaml_limit` and `share`. -/
inductive Control where
  | created (accelerator : Accelerator)
  | running (accelerator : Accelerator) (yamlLimit : Int32) (share : Int)
  deriving DecidableEq, Repr

/-- The globals of the process, the remaining statements of the calls in progress, and the control
threads. `reads` is a ghost: it counts how often the configuration has been read. -/
structure State where
  configData : RcData
  done : List Once
  calls : List (List Statement)
  controls : List Control
  curCores : Int
  totalCores : Int
  exited : Bool
  reads : Nat
  deriving DecidableEq, Repr

/-- The process when the library is loaded. -/
def State.initial : State := ⟨.zero, [], [], [], 0, 0, false, 0⟩

/-- `read_controller_configuration`, with the record in the container's file, or `none` when the
file is missing or short. -/
def readControllerConfiguration (file : Option RcData) (state : State) : State :=
  match file with
  | none => { state with exited := true }
  | some data => { state with configData := data, reads := state.reads + 1 }

/-- `create_prod_gpu_thread` and `create_prod_mlu_thread`, with the success of `pthread_create`. -/
def createProdThread (accelerator : Accelerator) (created : Bool) (state : State) : State :=
  if created then { state with controls := state.controls ++ [.created accelerator] }
  else { state with exited := true }

/-- The function that is passed to `pthread_once` with a guard. Those that fill the tables of the
driver's functions touch nothing else. -/
def initRoutine (file : Option RcData) (created : Bool) : Once → State → State
  | .readConfig => readControllerConfiguration file
  | .gpuLibPtrInit | .mluLibPtrInit => id
  | .gpuProd => createProdThread .gpu created
  | .mluProd => createProdThread .mlu created

/-- A call performs a statement. -/
def perform (file : Option RcData) (created : Bool) : Statement → State → State
  | .pthreadOnce guard, state =>
      if guard ∈ state.done then state
      else initRoutine file created guard { state with done := guard :: state.done }
  | .readControllerConfiguration, state => readControllerConfiguration file state
  | .callEntry, state => state

/-- The delta function of an accelerator. -/
def deltaFor (card : Accelerator → Card) (totalCores : Int) (accelerator : Accelerator)
    (upLimit userCurrent share : Int) : Int :=
  match accelerator with
  | .mlu => deltaForMlu (card .mlu).cores (card .mlu).threads totalCores upLimit userCurrent share
  | .gpu => deltaForGpu (card .gpu).cores (card .gpu).threads totalCores upLimit userCurrent share

/-- One round of the loop of `source_control`, with what `get_uti` returns. -/
def tick (card : Accelerator → Card) (accelerator : Accelerator) (yamlLimit : Int32) (share : Int)
    (uti : UInt32) (i : Nat) (state : State) : State :=
  let value := deltaFor card state.totalCores accelerator yamlLimit.toInt uti.toInt32.toInt share
  if uti < UInt32.ofInt (yamlLimit.toInt.tdiv 10) then { state with curCores := value }
  else
    { state with
      controls := state.controls.set i (.running accelerator yamlLimit value)
      curCores := coresAfter state.totalCores state.curCores value }

/-- A thread calls an entry point, a call performs its next statement, a created control thread is
scheduled, or one in its loop makes a round. -/
inductive Action where
  | call (entry : EntryPoint)
  | advance (i : Nat) (created : Bool)
  | start (i : Nat)
  | tick (i : Nat) (uti : UInt32)
  deriving DecidableEq, Repr

/-- One transition, `none` when there is no such thread or the process has exited. -/
def step (card : Accelerator → Card) (file : Option RcData) (state : State) (action : Action) :
    Option State :=
  if state.exited then none
  else
    match action with
    | .call entry => some { state with calls := state.calls ++ [entry.body] }
    | .advance i created =>
        match state.calls[i]? with
        | some (statement :: rest) =>
            some (perform file created statement { state with calls := state.calls.set i rest })
        | _ => none
    | .start i =>
        match state.controls[i]? with
        | some (.created accelerator) =>
            some { state with
              controls :=
                state.controls.set i (.running accelerator state.configData.utilization 0)
              totalCores := (card accelerator).totalCores }
        | _ => none
    | .tick i uti =>
        match state.controls[i]? with
        | some (.running accelerator yamlLimit share) =>
            some (Startup.tick card accelerator yamlLimit share uti i state)
        | _ => none

/-- The `utilization` field of the file. -/
def limitOf (file : Option RcData) : Option Int32 := file.map fun data => data.utilization

/-- Every control thread in its loop has the limit of the file. -/
def LimitsRead (file : Option RcData) (state : State) : Prop :=
  ∀ accelerator yamlLimit share, Control.running accelerator yamlLimit share ∈ state.controls →
    limitOf file = some yamlLimit

/-- A round of the loop uses the limit of the file. -/
def UsesLimit (file : Option RcData) (state : State) : Action → Prop
  | .tick i _ => ∀ accelerator yamlLimit share,
      state.controls[i]? = some (.running accelerator yamlLimit share) →
      limitOf file = some yamlLimit
  | _ => True

/-- A control thread starts after the configuration has been read, or the limit of the file is
zero. -/
def ReadBeforeStart (file : Option RcData) (state : State) : Action → Prop
  | .start _ => 0 < state.reads ∨ limitOf file = some 0
  | _ => True

/-- Not a call of `cuDriverGetVersion`. -/
def NotVersionCall (_ : State) : Action → Prop
  | .call entry => entry ≠ .cuDriverGetVersion
  | _ => True

instance (file : Option RcData) (state : State) :
    ∀ action, Decidable (ReadBeforeStart file state action)
  | .start _ => inferInstanceAs (Decidable (_ ∨ _))
  | .call _ | .advance _ _ | .tick _ _ => .isTrue trivial

instance (state : State) : ∀ action, Decidable (NotVersionCall state action)
  | .call _ => inferInstanceAs (Decidable (_ ≠ _))
  | .advance _ _ | .start _ | .tick _ _ => .isTrue trivial

/-! ## What a step does -/

/-- What a statement does: nothing besides noting its guard, reading the configuration, creating a
control thread, or exiting. -/
inductive Performed (file : Option RcData) (statement : Statement) (state next : State) : Prop where
  | kept (done) : (statement.reads = true → .readConfig ∈ state.done) →
      (.readConfig ∈ done → .readConfig ∈ state.done) → next = { state with done := done } →
      Performed file statement state next
  | read (data done) : file = some data →
      next = { state with configData := data, reads := state.reads + 1, done := done } →
      Performed file statement state next
  | created (accelerator done) : statement.creates = true →
      (.readConfig ∈ done → .readConfig ∈ state.done) →
      next = { state with controls := state.controls ++ [.created accelerator], done := done } →
      Performed file statement state next
  | exited (done) : next = { state with exited := true, done := done } →
      Performed file statement state next

/-- Reading the configuration stores the record or exits. -/
theorem performed_read {file : Option RcData} {statement : Statement} (state : State)
    (done : List Once) :
    Performed file statement state
      (readControllerConfiguration file { state with done := done }) := by
  cases file with
  | none => exact .exited done rfl
  | some data => exact .read data done rfl rfl

/-- Creating a thread adds it or exits. -/
theorem performed_create {file : Option RcData} {statement : Statement} (accelerator : Accelerator)
    (created : Bool) (state : State) (done : List Once) (hcreates : statement.creates = true)
    (hdone : .readConfig ∈ done → .readConfig ∈ state.done) :
    Performed file statement state
      (createProdThread accelerator created { state with done := done }) := by
  cases created with
  | false => exact .exited done rfl
  | true => exact .created accelerator done hcreates hdone rfl

/-- Every statement does one of these things. -/
theorem performed_perform (file : Option RcData) (created : Bool) (statement : Statement)
    (state : State) : Performed file statement state (perform file created statement state) := by
  cases statement with
  | callEntry => exact .kept state.done nofun id rfl
  | readControllerConfiguration => exact performed_read state state.done
  | pthreadOnce guard =>
      by_cases hdone : guard ∈ state.done
      · rw [perform, if_pos hdone]
        refine .kept state.done (fun hreads => ?_) id rfl
        cases guard <;> first | exact hdone | cases hreads
      · -- a guard other than `read_config` does not count as having read
        rw [perform, if_neg hdone]
        have hother : guard ≠ .readConfig → Once.readConfig ∈ guard :: state.done →
            Once.readConfig ∈ state.done := by
          intro hne hmem
          exact (List.mem_cons.mp hmem).resolve_left (Ne.symm hne)
        cases guard with
        | readConfig => exact performed_read state (.readConfig :: state.done)
        | gpuLibPtrInit => exact .kept _ nofun (hother nofun) rfl
        | mluLibPtrInit => exact .kept _ nofun (hother nofun) rfl
        | gpuProd => exact performed_create .gpu created state _ rfl (hother nofun)
        | mluProd => exact performed_create .mlu created state _ rfl (hother nofun)

/-- What a step does. -/
inductive Effect (card : Accelerator → Card) (file : Option RcData) (state next : State) :
    Action → Prop where
  | called (entry) : next = { state with calls := state.calls ++ [entry.body] } →
      Effect card file state next (.call entry)
  | advanced (i created statement rest) : state.calls[i]? = some (statement :: rest) →
      Performed file statement { state with calls := state.calls.set i rest } next →
      Effect card file state next (.advance i created)
  | started (i accelerator) : state.controls[i]? = some (.created accelerator) →
      next = { state with
        controls := state.controls.set i (.running accelerator state.configData.utilization 0)
        totalCores := (card accelerator).totalCores } →
      Effect card file state next (.start i)
  | ticked (i uti accelerator yamlLimit share) :
      state.controls[i]? = some (.running accelerator yamlLimit share) →
      next = Startup.tick card accelerator yamlLimit share uti i state →
      Effect card file state next (.tick i uti)

/-- Every step has one of these effects. -/
theorem effect_of_step {card : Accelerator → Card} {file : Option RcData} {state next : State}
    {action : Action} (hstep : step card file state action = some next) :
    state.exited = false ∧ Effect card file state next action := by
  unfold step at hstep
  split at hstep
  · cases hstep
  rename_i hexited
  refine ⟨Bool.eq_false_iff.mpr hexited, ?_⟩
  cases action with
  | call entry =>
      cases hstep
      exact .called entry rfl
  | advance i created =>
      dsimp only at hstep
      split at hstep <;> cases hstep
      rename_i statement rest hcall
      exact .advanced i created statement rest hcall (performed_perform _ _ _ _)
  | start i =>
      dsimp only at hstep
      split at hstep <;> cases hstep
      rename_i accelerator hcontrol
      exact .started i accelerator hcontrol rfl
  | tick i uti =>
      dsimp only at hstep
      split at hstep <;> cases hstep
      rename_i accelerator yamlLimit share hcontrol
      exact .ticked i uti accelerator yamlLimit share hcontrol rfl

/-- A round of the loop changes no control thread but its own, and not its limit. -/
theorem tick_controls (card : Accelerator → Card) (accelerator : Accelerator) (yamlLimit : Int32)
    (share : Int) (uti : UInt32) (i : Nat) (state : State) :
    (tick card accelerator yamlLimit share uti i state).controls = state.controls ∨
    ∃ value, (tick card accelerator yamlLimit share uti i state).controls =
      state.controls.set i (.running accelerator yamlLimit value) := by
  unfold tick
  dsimp only
  split
  · exact .inl rfl
  · exact .inr ⟨_, rfl⟩

/-- A round of the loop changes nothing that the calls use. -/
theorem tick_frame (card : Accelerator → Card) (accelerator : Accelerator) (yamlLimit : Int32)
    (share : Int) (uti : UInt32) (i : Nat) (state : State) :
    (tick card accelerator yamlLimit share uti i state).configData = state.configData ∧
    (tick card accelerator yamlLimit share uti i state).reads = state.reads ∧
    (tick card accelerator yamlLimit share uti i state).done = state.done ∧
    (tick card accelerator yamlLimit share uti i state).calls = state.calls := by
  unfold tick
  dsimp only
  split <;> exact ⟨rfl, rfl, rfl, rfl⟩

/-! ## The limit -/

/-- `config_data` is zero until it has been read, and the record of the file from then on. -/
structure ConfigRead (file : Option RcData) (state : State) : Prop where
  unread : state.reads = 0 → state.configData = .zero
  read : 0 < state.reads → file = some state.configData

/-- Every step keeps this. -/
theorem config_read_step {card : Accelerator → Card} {file : Option RcData} {state next : State}
    {action : Action} (h : ConfigRead file state)
    (hstep : step card file state action = some next) : ConfigRead file next := by
  obtain ⟨-, heffect⟩ := effect_of_step hstep
  cases heffect with
  | called entry heq =>
      subst heq
      exact ⟨h.unread, h.read⟩
  | advanced i created statement rest hcall hperformed =>
      cases hperformed with
      | kept done hreads hdone heq =>
          subst heq
          exact ⟨h.unread, h.read⟩
      | read data done hfile heq =>
          subst heq
          exact ⟨nofun, fun _ => hfile⟩
      | created accelerator done hcreates hdone heq =>
          subst heq
          exact ⟨h.unread, h.read⟩
      | exited done heq =>
          subst heq
          exact ⟨h.unread, h.read⟩
  | started i accelerator hcontrol heq =>
      subst heq
      exact ⟨h.unread, h.read⟩
  | ticked i uti accelerator yamlLimit share hcontrol heq =>
      obtain ⟨hconfig, hreads, -, -⟩ := tick_frame card accelerator yamlLimit share uti i state
      rw [← heq] at hconfig hreads
      exact ⟨fun hnone => hconfig.trans (h.unread (hreads.symm.trans hnone)),
        fun hsome => by rw [hconfig]; exact h.read (hreads ▸ hsome)⟩

/-- A thread that starts copies the limit of the file exactly when the file has been read or its
limit is zero. -/
theorem copied_limit_iff {file : Option RcData} {state : State} (h : ConfigRead file state) :
    limitOf file = some state.configData.utilization ↔
      0 < state.reads ∨ limitOf file = some 0 := by
  rcases Nat.eq_zero_or_pos state.reads with hzero | hpos
  · rw [h.unread hzero]
    exact ⟨.inr, fun hor => hor.resolve_left (by omega)⟩
  · have hlimit : limitOf file = some state.configData.utilization := by
      rw [h.read hpos]
      rfl
    exact ⟨fun _ => .inl hpos, fun _ => hlimit⟩

/-- A step out of a state in which every limit is read leads to such a state exactly when it does
not start a thread too early. -/
theorem limits_step_iff {card : Accelerator → Card} {file : Option RcData} {state next : State}
    {action : Action} (hconfig : ConfigRead file state) (hgood : LimitsRead file state)
    (hstep : step card file state action = some next) :
    LimitsRead file next ↔ ReadBeforeStart file state action := by
  obtain ⟨-, heffect⟩ := effect_of_step hstep
  cases heffect with
  | called entry heq =>
      subst heq
      exact iff_of_true hgood trivial
  | advanced i created statement rest hcall hperformed =>
      refine iff_of_true ?_ trivial
      cases hperformed with
      | kept done hreads hdone heq =>
          subst heq
          exact hgood
      | read data done hfile heq =>
          subst heq
          exact hgood
      | created accelerator done hcreates hdone heq =>
          subst heq
          intro other yamlLimit share hmem
          rcases List.mem_append.mp hmem with hold | hnew
          · exact hgood other yamlLimit share hold
          · cases List.mem_singleton.mp hnew
      | exited done heq =>
          subst heq
          exact hgood
  | started i accelerator hcontrol heq =>
      subst heq
      refine Iff.trans ?_ (copied_limit_iff hconfig)
      constructor
      · intro hnext
        have hlength : i < state.controls.length := (List.getElem?_eq_some_iff.mp hcontrol).1
        exact hnext accelerator state.configData.utilization 0 (List.mem_set hlength _)
      · intro hlimit other yamlLimit share hmem
        rcases List.mem_or_eq_of_mem_set hmem with hold | hnew
        · exact hgood other yamlLimit share hold
        · cases hnew
          exact hlimit
  | ticked i uti accelerator yamlLimit share hcontrol heq =>
      refine iff_of_true ?_ trivial
      have hlimit := hgood accelerator yamlLimit share (List.mem_of_getElem? hcontrol)
      intro other otherLimit otherShare hmem
      rw [heq] at hmem
      rcases tick_controls card accelerator yamlLimit share uti i state with hsame | ⟨value, hset⟩
      · rw [hsame] at hmem
        exact hgood other otherLimit otherShare hmem
      · rw [hset] at hmem
        rcases List.mem_or_eq_of_mem_set hmem with hold | hnew
        · exact hgood other otherLimit otherShare hold
        · cases hnew
          exact hlimit

/-! ## The entry points that read first -/

/-- The statements create a control thread before they read the configuration. -/
def createsUnread : List Statement → Bool
  | [] => false
  | statement :: rest =>
      statement.creates || (!statement.reads && createsUnread rest)

/-- Only `cuDriverGetVersion` does. -/
theorem creates_unread_iff (entry : EntryPoint) :
    createsUnread entry.body = true ↔ entry = .cuDriverGetVersion := by
  cases entry <;> decide

/-- While the process runs, a call that creates a thread without reading, a `read_config` that is
done, and a control thread all mean that the configuration has been read. -/
structure Guarded (state : State) : Prop where
  calls : ∀ body ∈ state.calls, createsUnread body = true → 0 < state.reads
  done : .readConfig ∈ state.done → 0 < state.reads
  controls : state.controls ≠ [] → 0 < state.reads

/-- The configuration has been read when the rest of a call creates a thread without reading, and
the process goes on. -/
theorem read_of_rest {file : Option RcData} {statement : Statement} {rest : List Statement}
    {calls : List (List Statement)} {state next : State} (h : Guarded state)
    (hcall : statement :: rest ∈ state.calls)
    (hperformed : Performed file statement { state with calls := calls } next)
    (hexited : next.exited = false) (hrest : createsUnread rest = true) : 0 < next.reads := by
  -- a statement that does not read leaves the whole call one that creates without reading
  have hwhole : statement.reads = false → 0 < state.reads := by
    intro hreads
    refine h.calls _ hcall ?_
    simp [createsUnread, hreads, hrest]
  cases hperformed with
  | kept done hreads hdone heq =>
      subst heq
      cases hstatement : statement.reads with
      | false => exact hwhole hstatement
      | true => exact h.done (hreads hstatement)
  | read data done hfile heq =>
      subst heq
      exact Nat.succ_pos _
  | created accelerator done hcreates hdone heq =>
      subst heq
      exact h.calls _ hcall (by simp [createsUnread, hcreates])
  | exited done heq =>
      subst heq
      cases hexited

/-- A statement of a call keeps the invariant. -/
theorem guarded_performed {file : Option RcData} {statement : Statement} {rest : List Statement}
    {state next : State} (i : Nat) (h : Guarded state)
    (hcall : state.calls[i]? = some (statement :: rest))
    (hperformed : Performed file statement { state with calls := state.calls.set i rest } next)
    (hexited : next.exited = false) : Guarded next := by
  have hmem : statement :: rest ∈ state.calls := List.mem_of_getElem? hcall
  have hrest := read_of_rest h hmem hperformed hexited
  have hcalls : 0 < next.reads ∨ ∀ body ∈ state.calls.set i rest, createsUnread body = true →
      0 < state.reads := by
    by_cases hpos : 0 < next.reads
    · exact .inl hpos
    · refine .inr fun body hbody hunread => ?_
      rcases List.mem_or_eq_of_mem_set hbody with hold | rfl
      · exact h.calls body hold hunread
      · exact absurd (hrest hunread) hpos
  cases hperformed with
  | kept done hreads hdone heq =>
      subst heq
      exact ⟨fun body hbody hunread => hcalls.elim id fun hall => hall body hbody hunread,
        fun hread => h.done (hdone hread), h.controls⟩
  | read data done hfile heq =>
      subst heq
      exact ⟨fun _ _ _ => Nat.succ_pos _, fun _ => Nat.succ_pos _, fun _ => Nat.succ_pos _⟩
  | created accelerator done hcreates hdone heq =>
      subst heq
      have hpos : 0 < state.reads := h.calls _ hmem (by simp [createsUnread, hcreates])
      exact ⟨fun _ _ _ => hpos, fun _ => hpos, fun _ => hpos⟩
  | exited done heq =>
      subst heq
      cases hexited

/-- Every step but a call of `cuDriverGetVersion` keeps the invariant. -/
theorem guarded_step {card : Accelerator → Card} {file : Option RcData} {state next : State}
    {action : Action} (h : state.exited = false → Guarded state)
    (hother : NotVersionCall state action) (hstep : step card file state action = some next) :
    next.exited = false → Guarded next := by
  intro hexited
  obtain ⟨hrunning, heffect⟩ := effect_of_step hstep
  replace h := h hrunning
  cases heffect with
  | called entry heq =>
      subst heq
      have hnew : createsUnread entry.body = true → 0 < state.reads :=
        fun hunread => absurd ((creates_unread_iff entry).mp hunread) hother
      exact ⟨forall_mem_concat h.calls hnew, h.done, h.controls⟩
  | advanced i created statement rest hcall hperformed =>
      exact guarded_performed i h hcall hperformed hexited
  | started i accelerator hcontrol heq =>
      subst heq
      have hpos : 0 < state.reads :=
        h.controls (List.ne_nil_of_mem (List.mem_of_getElem? hcontrol))
      exact ⟨h.calls, h.done, fun _ => hpos⟩
  | ticked i uti accelerator yamlLimit share hcontrol heq =>
      obtain ⟨-, hreads, hdone, hcalls⟩ := tick_frame card accelerator yamlLimit share uti i state
      have hpos : 0 < state.reads :=
        h.controls (List.ne_nil_of_mem (List.mem_of_getElem? hcontrol))
      subst heq
      exact ⟨fun _ _ _ => hreads ▸ hpos, fun _ => hreads ▸ hpos, fun _ => hreads ▸ hpos⟩

/-- A control thread that starts in a state with the invariant does so after a read. -/
theorem read_before_start {card : Accelerator → Card} {file : Option RcData} {state next : State}
    {action : Action} (h : state.exited = false → Guarded state)
    (hstep : step card file state action = some next) : ReadBeforeStart file state action := by
  obtain ⟨hrunning, heffect⟩ := effect_of_step hstep
  cases heffect with
  | started i accelerator hcontrol heq =>
      exact .inl ((h hrunning).controls (List.ne_nil_of_mem (List.mem_of_getElem? hcontrol)))
  | called | advanced | ticked => exact trivial

/-- A round of the loop uses the limit of the file when the control threads have it. -/
theorem uses_limit_of_read {file : Option RcData} {state : State} (h : LimitsRead file state)
    (action : Action) : UsesLimit file state action := by
  cases action with
  | tick i uti =>
      intro accelerator yamlLimit share hcontrol
      exact h accelerator yamlLimit share (List.mem_of_getElem? hcontrol)
  | call | advance | start => exact trivial

/-- In every run: every control thread in its loop has the limit of the file, in every state,
exactly when every one starts after the configuration has been read or the limit is zero; every
round of the loop then uses that limit; and this is so whenever `cuDriverGetVersion` is not
called. -/
theorem yaml_limit_read_iff (card : Accelerator → Card) (file : Option RcData)
    (actions : List Action) :
    (Always (step card file) (LimitsRead file) .initial actions ↔
      Along (step card file) (ReadBeforeStart file) .initial actions) ∧
    (Along (step card file) (ReadBeforeStart file) .initial actions →
      Along (step card file) (UsesLimit file) .initial actions) ∧
    (Along (step card file) NotVersionCall .initial actions →
      Along (step card file) (ReadBeforeStart file) .initial actions) := by
  have hconfig : ConfigRead file .initial := ⟨fun _ => rfl, nofun⟩
  have hlimits : LimitsRead file .initial := nofun
  have hguarded : State.initial.exited = false → Guarded .initial :=
    fun _ => ⟨nofun, nofun, fun hne => absurd rfl hne⟩
  refine ⟨?_, fun hstarts => ?_, fun hother => ?_⟩
  · exact always_iff_along (fun state action next h hstep => config_read_step h hstep)
      (fun state action next hinv hgood hstep => limits_step_iff hinv hgood hstep) actions hconfig
      hlimits
  · have hpreserve : ∀ state action next, ConfigRead file state ∧ LimitsRead file state →
        ReadBeforeStart file state action → step card file state action = some next →
        ConfigRead file next ∧ LimitsRead file next := by
      intro state action next ⟨hinv, hgood⟩ hcond hstep
      exact ⟨config_read_step hinv hstep, (limits_step_iff hinv hgood hstep).mpr hcond⟩
    exact along_of_invariant hpreserve
      (fun state action next hinv _ _ => uses_limit_of_read hinv.2 action) ⟨hconfig, hlimits⟩
      hstarts
  · exact along_of_invariant
      (fun state action next h hcond hstep => guarded_step h hcond hstep)
      (fun state action next h _ hstep => read_before_start h hstep) hguarded hother

/-- A card for both accelerators. -/
def sampleCard (_ : Accelerator) : Card := ⟨4, 8, 1000⟩

/-- The record of a container with a limit of 30 percent. -/
def sampleFile : Option RcData := some ⟨"pod", "container", 0, 30⟩

/-- A process whose threads call `cuInit`, `cnInit` and, with the others under way,
`cuDriverGetVersion`. -/
def orderedCalls : List Action :=
  [.call .cuInit, .advance 0 true, .call .cuDriverGetVersion, .advance 1 true, .advance 1 true,
    .call .cnInit, .start 0, .advance 2 true, .advance 2 true, .advance 2 true, .tick 0 12,
    .start 1, .tick 1 40, .advance 0 true, .tick 0 50]

/-- That run uses the limit in every round. -/
theorem yaml_limit_read_ordered :
    Along (step sampleCard sampleFile) (ReadBeforeStart sampleFile) .initial orderedCalls ∧
    Always (step sampleCard sampleFile) (LimitsRead sampleFile) .initial orderedCalls ∧
    Along (step sampleCard sampleFile) (UsesLimit sampleFile) .initial orderedCalls ∧
    Along (step sampleCard sampleFile) NotVersionCall .initial [.call .cuInit, .advance 0 true] ∧
    Along (step sampleCard sampleFile) (ReadBeforeStart sampleFile) .initial
      [.call .cuInit, .advance 0 true] := by
  have hordered : Along (step sampleCard sampleFile) (ReadBeforeStart sampleFile) .initial
      orderedCalls := by decide
  have hinit : Along (step sampleCard sampleFile) NotVersionCall .initial
      [.call .cuInit, .advance 0 true] := by decide
  have hrun := yaml_limit_read_iff sampleCard sampleFile orderedCalls
  exact ⟨hordered, hrun.1.mpr hordered, hrun.2.1 hordered, hinit,
    (yaml_limit_read_iff sampleCard sampleFile _).2.2 hinit⟩

/-- When `cuDriverGetVersion` comes first, the control thread can start with a limit of zero. -/
theorem yaml_limit_unread :
    ¬ ∀ (card : Accelerator → Card) (data : RcData) (actions : List Action),
      Along (step card (some data)) (UsesLimit (some data)) .initial actions := by
  intro h
  have hrun := h sampleCard ⟨"pod", "container", 0, 30⟩
    [.call .cuDriverGetVersion, .advance 0 true, .advance 0 true, .start 0, .tick 0 0]
  have htick := (hrun _ rfl).2 _ rfl |>.2 _ rfl |>.2 _ rfl |>.2 _ rfl |>.1
  exact absurd (htick .gpu 0 0 rfl) (by decide)

end Startup

end UniShare.Interceptor
