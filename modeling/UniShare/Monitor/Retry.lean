import UniShare.Lib.GrowingBuffer
import UniShare.Monitor.Neighbours

/-!
# Asking CNDev for the processes of a card

The loops of `get_mlu_mem` and `get_mlu_uti` in `core/monitor/monitor_mlu.c`, on an array that holds
ten processes at first. By its contract CNDev answers `CNDEV_ERROR_INSUFFICIENT_SPACE` when there
are more, with the number set to how many there are, as `Query.call` has it, and the array is
enlarged to that number. Processes come and go between the calls.
`asks_until_fit` says that what is returned is the sum over the processes of one moment, as
`getMluMem` and `getMluUti` compute it.
-/

namespace UniShare.Monitor

open Lib

/-- What a card with these processes over time, or an error, answers to each call. -/
abbrev Card := Nat → Answer Process

/-- How many processes the array holds at first, `tCount` and `pCount`. -/
def firstCount : Nat := 10

/-- What a function of the monitor comes to: it returns a value, `cndevCheckErrors` ends the
process, or memory outside of the array has been accessed. -/
inductive Outcome (α : Type) where
  | returns (value : α)
  | exits (code : Nat)
  | fault
  deriving DecidableEq, Repr

/-- `cndevCheckErrors`, and the loop over the processes. -/
def sumProcesses {α : Type} (round : α → Process → α) (start : α) (query : Query Process) :
    Outcome α :=
  match query.ret with
  | .success =>
      match foldEntries round start query.count query.buffer with
      | some value => .returns value
      | none => .fault
  | .error code => .exits code
  -- the loop before it goes on as long as there is no room
  | .insufficient => .fault
  | .fault => .fault

/-- What `get_mlu_mem` comes to, from where its loop has ended. -/
def mluMemOutcome (query : Query Process) : Outcome UInt64 :=
  sumProcesses (fun used process => used + process.physicalMemoryUsed) 0 query

/-- What `get_mlu_uti` comes to, from where its loop has ended; when the first call answers
`CNDEV_ERROR_NOT_SUPPORTED` there is no loop. -/
def mluUtiOutcome (notSupported : Nat) (query : Query Process) : Outcome UInt32 :=
  if query.calls = 1 ∧ query.ret = .error notSupported then .returns 0
  else sumProcesses (fun total process => total + process.ipuUtil) 0 query

section Sums

variable {α : Type} {round : α → Process → α} {start : α} {query : Query Process}

/-- An array that starts with the processes of an answer is summed up over these. -/
theorem sum_processes_success {processes : List Process} (hret : query.ret = .success)
    (hlength : query.count ≤ query.buffer.length)
    (htake : query.buffer.take query.count = processes) :
    sumProcesses round start query = .returns (processes.foldl round start) := by
  simp [sumProcesses, hret, fold_entries_eq hlength, htake]

/-- An error ends the process. -/
theorem sum_processes_error {code : Nat} (hret : query.ret = .error code) :
    sumProcesses round start query = .exits code := by
  simp [sumProcesses, hret]

end Sums

/-- While a card never has more than `most` processes, whatever processes come and go between the
calls and whatever memory holds at first, the loops of `get_mlu_mem` and `get_mlu_uti` end after at
most `most - 10 + 1` calls. They return the sums over the processes of the moment of the latest
call, or the process exits with the error of that call; only a first call that is not supported
makes `get_mlu_uti` return zero. -/
theorem asks_until_fit (card : Card) (fresh : Nat → Process) (notSupported most : Nat)
    (hmost : ∀ k processes, card k = .entries processes → processes.length ≤ most) :
    Completes (Query.again card fresh)
      (fun final => final.calls ≤ most - 10 + 1 ∧
        match card (final.calls - 1) with
        | .entries processes =>
            mluMemOutcome final = .returns (getMluMem processes) ∧
              mluUtiOutcome notSupported final = .returns (getMluUti (some processes))
        | .error code =>
            mluMemOutcome final = .exits code ∧
              mluUtiOutcome notSupported final =
                if final.calls = 1 ∧ code = notSupported then .returns (getMluUti none)
                else .exits code)
      (Query.start card fresh firstCount) := by
  refine (query_completes fresh firstCount hmost).mono fun final hfinal => ?_
  obtain ⟨hcalls, hanswer⟩ := hfinal
  refine ⟨hcalls, ?_⟩
  cases hcard : card (final.calls - 1) with
  | entries processes =>
      rw [hcard] at hanswer
      obtain ⟨hret, hlength, htake⟩ := hanswer
      refine ⟨sum_processes_success hret hlength htake, ?_⟩
      rw [mluUtiOutcome, if_neg (by simp [hret])]
      exact sum_processes_success hret hlength htake
  | error code =>
      rw [hcard] at hanswer
      have hret : final.ret = .error code := hanswer
      refine ⟨sum_processes_error hret, ?_⟩
      simp only [mluUtiOutcome, hret, Ret.error.injEq]
      split
      · rfl
      · exact sum_processes_error hret

/-- A card with twelve processes at the first call, and one more at each of the next three. -/
def crowdedCard : Card := fun k => .entries (List.replicate (12 + min k 3) (sampleProcess 1 2 3))

/-- On it the loops end after at most six calls. -/
theorem asks_until_fit_crowded :
    Completes (Query.again crowdedCard fun _ => sampleProcess 0 0 0)
      (fun final => final.calls ≤ 15 - 10 + 1 ∧
        match crowdedCard (final.calls - 1) with
        | .entries processes =>
            mluMemOutcome final = .returns (getMluMem processes) ∧
              mluUtiOutcome 4 final = .returns (getMluUti (some processes))
        | .error code =>
            mluMemOutcome final = .exits code ∧
              mluUtiOutcome 4 final =
                if final.calls = 1 ∧ code = 4 then .returns (getMluUti none) else .exits code)
      (Query.start crowdedCard (fun _ => sampleProcess 0 0 0) firstCount) := by
  refine asks_until_fit crowdedCard (fun _ => sampleProcess 0 0 0) 4 15 fun k processes hcard => ?_
  obtain rfl := Answer.entries.inj hcard
  rw [List.length_replicate]
  omega

end UniShare.Monitor
