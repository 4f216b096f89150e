import UniShare.Lib.Completion
import UniShare.ResourceManager.Steps

/-!
# Waiting for container statuses

How one call of `creatVcudaServer` goes to the container statuses that it records. The wait looks at
the event and then at what the API server answers, a hundred documents in all (`FoundAt`); the loop
over the statuses takes the containers that have an ID and a name (`Recorded`), and indexes what is
behind `docker://` in the ID. A handler comes to no point twice, so what it is answered is a
function of the point.
-/

namespace UniShare.ResourceManager

open Lib Kube StateTransition

/-! ## The wait -/

section Wait

variable [Gjson]

/-- The condition under which `creatVcudaServer` looks at the statuses: the pod is marked as
assigned and its containers have not been done. -/
def Serves (vm : VirtualManager) (event : Json) : Prop :=
  Gjson.string (assigned event) = "true" ∧ (vm.podDoByUID (podUID event)).getD false = false

instance (vm : VirtualManager) (event : Json) : Decidable (Serves vm event) :=
  inferInstanceAs (Decidable (_ ∧ _))

/-- The container statuses in the documents that the wait looks at: first the event, and then the
answers to its requests. -/
def statusesAt (event : Json) (answers : HandlerPoint → Answer) : Nat → Option Json
  | 0 => containerStatuses event
  | k + 1 => (answers (.await k none)).pod.bind fun reply => containerStatuses reply.toJson

/-- The wait finds these statuses in the document `k`. -/
structure FoundAt (event : Json) (answers : HandlerPoint → Answer) (k : Nat) (statuses : Json) :
    Prop where
  bound : k < 100
  found : statusesAt event answers k = some statuses
  earlier : ∀ j < k, statusesAt event answers j = none
  answered : ∀ j < k, (answers (.await j none)).pod.isSome

variable {event : Json} {answers : HandlerPoint → Answer}

/-- The wait finds statuses once. -/
theorem FoundAt.unique {k other : Nat} {statuses later : Json}
    (h : FoundAt event answers k statuses) (hother : FoundAt event answers other later) :
    statuses = later := by
  rcases Nat.lt_trichotomy k other with hlt | rfl | hgt
  · have hnone := hother.earlier k hlt
    rw [h.found] at hnone
    cases hnone
  · exact Option.some.inj (h.found.symm.trans hother.found)
  · have hnone := h.earlier other hgt
    rw [hother.found] at hnone
    cases hnone

/-- Where the wait goes from a look at a document. -/
def awaitNext (answer : Answer) (tries : Nat) (statuses : Option Json) : HandlerPoint :=
  if tries = 100 then .finished
  else if statuses.isSome then .record statuses
  else
    match answer.pod with
    | none => .finished
    | some reply => .await (tries + 1) (containerStatuses reply.toJson)

/-- A look at a document changes neither the maps nor the disk. -/
theorem creat_vcuda_server_await (cgroupV2 : Bool) (vm : VirtualManager) (disk : ConfigDisk)
    (event : Json) (answer : Answer) (tries : Nat) (statuses : Option Json) :
    creatVcudaServer cgroupV2 vm disk event answer (.await tries statuses) =
      .next vm disk (awaitNext answer tries statuses) := by
  simp only [creatVcudaServer, awaitNext]
  split
  · rfl
  · split
    · rfl
    · cases answer.pod <;> rfl

variable {σ : Type*} {f : σ → Option σ} {place : HandlerPoint → σ}

/-- A machine that follows the wait, after it has looked at `k` documents without statuses, comes to
the statuses that the wait finds, or to the end when it finds none. -/
theorem await_reaches_from
    (hstep : ∀ tries statuses, f (place (.await tries statuses)) =
      some (place (awaitNext (answers (.await tries statuses)) tries statuses)))
    {k : Nat} (hk : k ≤ 100) (hearlier : ∀ j < k, statusesAt event answers j = none)
    (hanswered : ∀ j < k, (answers (.await j none)).pod.isSome) :
    (∃ found statuses, FoundAt event answers found statuses ∧
        Reaches f (place (.await k (statusesAt event answers k)))
          (place (.record (some statuses)))) ∨
      (∀ found statuses, ¬ FoundAt event answers found statuses) ∧
        Reaches f (place (.await k (statusesAt event answers k))) (place .finished) := by
  induction hleft : 100 - k generalizing k with
  | zero =>
      obtain rfl : k = 100 := by omega
      refine .inr ⟨fun found statuses h => ?_, .single (by rw [hstep, awaitNext, if_pos rfl]; rfl)⟩
      have hnone := hearlier found h.bound
      rw [h.found] at hnone
      cases hnone
  | succ left ih =>
      have hne : k ≠ 100 := by omega
      cases hstatuses : statusesAt event answers k with
      | some statuses =>
          refine .inl ⟨k, statuses, ⟨by omega, hstatuses, hearlier, hanswered⟩, .single ?_⟩
          rw [hstep, awaitNext, if_neg hne]
          rfl
      | none =>
          have hall : ∀ j < k + 1, statusesAt event answers j = none := fun j hj => by
            rcases Nat.lt_succ_iff_lt_or_eq.mp hj with hlt | rfl
            · exact hearlier j hlt
            · exact hstatuses
          cases hpod : (answers (.await k none)).pod with
          | none =>
              refine .inr ⟨fun found statuses h => ?_, .single ?_⟩
              · have hlt : k < found := by
                  by_contra hle
                  have hnone := hall found (by omega)
                  rw [h.found] at hnone
                  cases hnone
                have hsome := h.answered k hlt
                rw [hpod] at hsome
                cases hsome
              · rw [hstep, awaitNext, if_neg hne, hpod]
                rfl
          | some reply =>
              have hnext : f (place (.await k none)) =
                  some (place (.await (k + 1) (statusesAt event answers (k + 1)))) := by
                rw [hstep, awaitNext, if_neg hne, statusesAt, hpod]
                rfl
              have hrest := ih (by omega) hall
                (fun j hj => by
                  rcases Nat.lt_succ_iff_lt_or_eq.mp hj with hlt | rfl
                  · exact hanswered j hlt
                  · rw [hpod]; rfl)
                (by omega)
              rcases hrest with ⟨found, statuses, hfound, hreaches⟩ | ⟨hnever, hreaches⟩
              · exact .inl ⟨found, statuses, hfound, hreaches.head hnext⟩
              · exact .inr ⟨hnever, hreaches.head hnext⟩

/-- A machine that follows the wait comes to the statuses that the wait finds, or to the end when it
finds none. -/
theorem await_reaches (event : Json) (answers : HandlerPoint → Answer)
    (hstep : ∀ tries statuses, f (place (.await tries statuses)) =
      some (place (awaitNext (answers (.await tries statuses)) tries statuses))) :
    (∃ found statuses, FoundAt event answers found statuses ∧
        Reaches f (place (.await 0 (containerStatuses event)))
          (place (.record (some statuses)))) ∨
      (∀ found statuses, ¬ FoundAt event answers found statuses) ∧
        Reaches f (place (.await 0 (containerStatuses event))) (place .finished) :=
  await_reaches_from hstep (Nat.zero_le 100) (fun _ h => absurd h (Nat.not_lt_zero _))
    (fun _ h => absurd h (Nat.not_lt_zero _))

end Wait

/-! ## The loop over the statuses -/

/-- The separator is in a text exactly when there is something behind it. -/
theorem after_separator_isSome_iff {separator : List Char} (hne : separator ≠ [])
    (text : List Char) : (afterSeparator separator text).isSome ↔ separator <:+: text := by
  induction text with
  | nil => simp [afterSeparator, hne]
  | cons c rest ih =>
      rw [afterSeparator, List.infix_cons_iff, ← List.isPrefixOf_iff_prefix]
      split
      · rename_i hstarts
        simp [hstarts]
      · rename_i hstarts
        simp [hstarts, ih]

section Record

variable [Gjson]

/-- `containerID` of a status. -/
def containerID (status : Json) : String := Gjson.string (Gjson.get (some status) "containerID")

/-- `name` of a status. -/
def containerName (status : Json) : String := Gjson.string (Gjson.get (some status) "name")

/-- The container of the status is recorded: it has an ID and a name. -/
def Recorded (status : Json) : Prop := containerID status ≠ "" ∧ containerName status ≠ ""

instance (status : Json) : Decidable (Recorded status) := inferInstanceAs (Decidable (_ ∧ _))

/-- The container runs under Docker. -/
def DockerID (status : Json) : Prop := "docker://".toList <:+: (containerID status).toList

instance (status : Json) : Decidable (DockerID status) :=
  inferInstanceAs (Decidable (_ <:+: _))

/-- The index behind the separator is in range exactly when the container runs under Docker. -/
theorem container_uid_isSome_iff (status : Json) :
    (containerUID (containerID status)).isSome ↔ DockerID status := by
  rw [containerUID, Option.isSome_map]
  exact after_separator_isSome_iff (by decide) _

/-- The loop over the statuses passes over a container that is not recorded. -/
theorem recorded_pairs_cons (status : Json) (rest : List Json) :
    recordedPairs (status :: rest) =
      if Recorded status then
        (containerUID (containerID status)).bind fun uid =>
          (recordedPairs rest).map fun pairs => (uid, containerName status) :: pairs
      else recordedPairs rest := by
  by_cases hid : containerID status = ""
  · rw [if_neg (show ¬ Recorded status from fun h => h.1 hid)]
    exact if_pos hid
  by_cases hname : containerName status = ""
  · rw [if_neg (show ¬ Recorded status from fun h => h.2 hname)]
    exact (if_neg hid).trans (if_pos hname)
  · rw [if_pos ⟨hid, hname⟩]
    refine ((if_neg hid).trans (if_neg hname)).trans ?_
    unfold containerID
    cases containerUID (Gjson.string (Gjson.get (some status) "containerID")) <;> rfl

/-- The loop over the statuses records no container exactly when none has an ID and a name. -/
theorem recorded_pairs_eq_nil_iff {values : List Json} :
    recordedPairs values = some [] ↔ ∀ status ∈ values, ¬ Recorded status := by
  induction values with
  | nil => simp [recordedPairs]
  | cons status rest ih =>
      rw [recorded_pairs_cons, List.forall_mem_cons, ← ih]
      by_cases hrecorded : Recorded status
      · simp [hrecorded, Option.bind_eq_some_iff]
      · simp [hrecorded]

/-- The loop over the statuses runs through exactly when every container that it records runs under
Docker. -/
theorem recorded_pairs_isSome_iff {values : List Json} :
    (recordedPairs values).isSome ↔ ∀ status ∈ values, Recorded status → DockerID status := by
  induction values with
  | nil => simp [recordedPairs]
  | cons status rest ih =>
      rw [recorded_pairs_cons, List.forall_mem_cons, ← ih, ← container_uid_isSome_iff]
      by_cases hrecorded : Recorded status
      · cases huid : containerUID (containerID status) <;> simp [hrecorded]
      · simp [hrecorded]

end Record

end UniShare.ResourceManager
